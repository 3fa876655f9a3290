import PlanOrbits.Shell.Storage.Rights
import PlanOrbits.Shell.Wildcard
import PlanOrbits.Text.Digits

/-!
# Searches

The expressions of the program that goes through directories: questions about each
file, what is done with it, and what is made of them with `!`, `-a`, `-o`, commas and
parentheses. Two expressions without anything between them must both hold.
-/

namespace PlanOrbits.Shell

/-- A number to compare with: a sign in front of it asks for more or for less. -/
structure Quantity where
  order : Ordering
  amount : Nat
  deriving DecidableEq, Repr

namespace Quantity

/-- The quantity that an argument denotes, and what stands behind the digits. -/
def split? (cs : List Char) : Option (Quantity × List Char) := do
  let (order, rest) :=
    match cs with
    | '+' :: rest => (Ordering.gt, rest)
    | '-' :: rest => (Ordering.lt, rest)
    | rest => (Ordering.eq, rest)
  let digits := rest.takeWhile Text.isDigit
  return ({ order, amount := Text.number (← Text.digits? digits) }, rest.drop digits.length)

/-- The quantity that an argument denotes. -/
def ofChars? (cs : List Char) : Option Quantity :=
  (split? cs).bind fun (q, rest) => if rest.isEmpty then some q else none

/-- Is a number as it is asked for? -/
def admits (q : Quantity) (n : Nat) : Bool := Ord.compare n q.amount == q.order

end Quantity

/-- Which of some bits a file must have. -/
inductive BitTest where
  | exact
  | all
  | any
  deriving DecidableEq, Repr

/-- An expression of a search. -/
inductive Criterion where
  | constant (b : Bool)
  /-- The last component of the path matches. -/
  | name (p : Pattern)
  /-- The path matches. -/
  | path (p : Pattern)
  /-- The file is a link to what matches. -/
  | target (p : Pattern)
  /-- The file is of one of the kinds with these letters. -/
  | kind (letters : List Char)
  | empty
  /-- The size, in units that are begun. -/
  | size (unit : Nat) (q : Quantity)
  /-- Changed after another file. -/
  | newer (path : List Char)
  /-- Changed after a described moment. -/
  | newerThan (text : List Char)
  /-- So many units of time have passed since the last change. -/
  | age (milliseconds : Nat) (q : Quantity)
  | rights (test : BitTest) (bits : Nat)
  | names (q : Quantity)
  | executable
  | sameFile (path : List Char)
  /-- Write the path, with a character behind it. -/
  | print (mark : Char)
  | layout (text : List Char)
  /-- Start a program for the file; it may begin in the directory of the file, and may
  need an assent. -/
  | call (isInside asks : Bool) (words : List (List Char))
  /-- Start a program at the end, for all files for which this is reached. -/
  | gather (id : Nat) (words : List (List Char))
  | delete
  | prune
  | quit
  | negation (c : Criterion)
  | conjunction (a b : Criterion)
  | disjunction (a b : Criterion)
  /-- Both are tried, and the second one counts. -/
  | sequence (a b : Criterion)
  deriving Repr

namespace Criterion

/-- Does an expression do something by itself? -/
def acts : Criterion → Bool
  | print _ | layout _ | call _ _ _ | gather _ _ | delete => true
  | negation c => c.acts
  | conjunction a b | disjunction a b | sequence a b => a.acts || b.acts
  | _ => false

/-- Is anything deleted? -/
def deletes : Criterion → Bool
  | delete => true
  | negation c => c.deletes
  | conjunction a b | disjunction a b | sequence a b => a.deletes || b.deletes
  | _ => false

/-- The programs that are started at the end, by their numbers. -/
def gathered : Criterion → List (Nat × List (List Char))
  | gather id words => [(id, words)]
  | negation c => c.gathered
  | conjunction a b | disjunction a b | sequence a b => a.gathered ++ b.gathered
  | _ => []

end Criterion

/-- A search. -/
structure Search where
  /-- Are links followed? -/
  followsLinks : Bool
  /-- Are links followed where the search begins? -/
  followsFirst : Bool
  paths : List (List Char)
  criterion : Criterion
  /-- How deep below the paths is searched at most. -/
  deepest : Option Nat
  /-- How deep below the paths a file has to be. -/
  shallowest : Nat
  /-- Does what is in a directory come before it? -/
  isInnerFirst : Bool

namespace Search

/-- The options that hold for a search as a whole. -/
structure Limits where
  deepest : Option Nat
  shallowest : Nat
  isInnerFirst : Bool

/-- An expression at the front of arguments with what is behind it, or what is
wrong. -/
abbrev Reading := Except String (Criterion × List (List Char) × Limits)

/-- The message about an argument that is wrong. -/
def fault (front : String) (arg : List Char) : String :=
  front ++ " \x60" ++ String.ofList arg ++ "'"

/-- The unit behind the digits of a size. -/
def sizeUnit? : List Char → Option Nat
  | [] | ['b'] => some 512
  | ['c'] => some 1
  | ['w'] => some 2
  | ['k'] => some 1024
  | ['M'] => some 1048576
  | ['G'] => some 1073741824
  | _ => none

/-- The rights that an argument asks for. -/
def rights? (cs : List Char) : Option Criterion :=
  let (test, rest) :=
    match cs with
    | '-' :: rest => (BitTest.all, rest)
    | '/' :: rest => (BitTest.any, rest)
    | rest => (BitTest.exact, rest)
  (Rights.change? false 0 0 rest).map (.rights test)

/-- The words of a program, with the number of arguments they take, and whether it is
started for all files at once. -/
def readWords : List (List Char) → Option (List (List Char) × Nat × Bool)
  | [] => none
  | [';'] :: _ => some ([], 1, false)
  | ['{', '}'] :: ['+'] :: _ => some ([], 2, true)
  | word :: rest => (readWords rest).map fun (words, n, isAtEnd) => (word :: words, n + 1, isAtEnd)

/-- The expression for an operator with one operand. -/
def unary? (operator : String) (operand : List Char) : Option Criterion :=
  let pattern := Pattern.ofWildcard operand
  let quantity? := Quantity.ofChars? operand
  match operator with
  | "-name" => some (.name pattern)
  | "-iname" => some (.name pattern.ignoringCase)
  | "-path" | "-wholename" => some (.path pattern)
  | "-ipath" | "-iwholename" => some (.path pattern.ignoringCase)
  | "-lname" => some (.target pattern)
  | "-ilname" => some (.target pattern.ignoringCase)
  | "-regex" => (Pattern.ofChars? .basic operand).map .path
  | "-iregex" => (Pattern.ofChars? .basic operand).map fun p => .path p.ignoringCase
  | "-type" =>
      let letters := operand.filter (· != ',')
      if letters.isEmpty || !letters.all ['f', 'd', 'l', 'p', 's', 'b', 'c'].contains then none
      else some (.kind letters)
  | "-size" => do
      let (q, rest) ← Quantity.split? operand
      return .size (← sizeUnit? rest) q
  | "-newer" | "-anewer" | "-cnewer" => some (.newer operand)
  | "-newermt" => some (.newerThan operand)
  | "-mtime" | "-atime" => quantity?.map (.age 86400000)
  | "-mmin" | "-amin" => quantity?.map (.age 60000)
  -- What is known of a file has always changed just now.
  | "-ctime" | "-cmin" => quantity?.map fun q => .constant (q.admits 0)
  | "-perm" => rights? operand
  | "-links" => quantity?.map .names
  | "-samefile" => some (.sameFile operand)
  | "-printf" => some (.layout operand)
  | "-user" | "-group" => some (.constant (operand == "root".toList || operand == ['0']))
  | "-uid" | "-gid" => quantity?.map fun q => .constant (q.admits 0)
  | "-fstype" | "-context" => some (.constant false)
  | _ => none

/-- The operators with one operand. -/
def unaryOperators : List String :=
  ["-name", "-iname", "-path", "-wholename", "-ipath", "-iwholename", "-lname", "-ilname", "-regex",
    "-iregex", "-type", "-size", "-newer", "-anewer", "-cnewer", "-newermt", "-mtime", "-atime",
    "-ctime", "-mmin", "-amin", "-cmin", "-perm", "-links", "-samefile", "-printf", "-user",
    "-group", "-uid", "-gid", "-fstype", "-context"]

/-- The expression for an operator without operands. -/
def plain? : String → Option Criterion
  | "-print" => some (.print '\n')
  | "-print0" => some (.print '\x00')
  | "-empty" => some .empty
  | "-executable" => some .executable
  | "-delete" => some .delete
  | "-prune" => some .prune
  | "-quit" => some .quit
  | "-true" | "-readable" | "-writable" | "-noleaf" | "-xdev" | "-mount" | "-daystart" | "-follow"
  | "-nowarn" | "-warn" => some (.constant true)
  | "-false" | "-nouser" | "-nogroup" => some (.constant false)
  | _ => none

mutual

/-- Expressions with commas between them. -/
def readSequence : Nat → Limits → List (List Char) → Reading
  | 0, _, _ => .error "too deep"
  | fuel + 1, limits, args => do
      let (a, rest, limits) ← readDisjunction fuel limits args
      match rest with
      | [','] :: rest =>
          let (b, rest, limits) ← readSequence fuel limits rest
          return (.sequence a b, rest, limits)
      | rest => return (a, rest, limits)

/-- Expressions of which one must hold. -/
def readDisjunction : Nat → Limits → List (List Char) → Reading
  | 0, _, _ => .error "too deep"
  | fuel + 1, limits, args => do
      let (a, rest, limits) ← readConjunction fuel limits args
      match rest with
      | word :: rest' =>
          if word == "-o".toList || word == "-or".toList then
            let (b, rest, limits) ← readDisjunction fuel limits rest'
            return (.disjunction a b, rest, limits)
          else return (a, rest, limits)
      | [] => return (a, [], limits)

/-- Expressions that must all hold. -/
def readConjunction : Nat → Limits → List (List Char) → Reading
  | 0, _, _ => .error "too deep"
  | fuel + 1, limits, args => do
      let (a, rest, limits) ← readNegation fuel limits args
      match rest with
      | [] => return (a, [], limits)
      | word :: rest' =>
          if ["-o", "-or", ",", ")"].contains (String.ofList word) then return (a, rest, limits)
          else
            let rest := if word == "-a".toList || word == "-and".toList then rest' else rest
            let (b, rest, limits) ← readConjunction fuel limits rest
            return (.conjunction a b, rest, limits)

/-- An expression, perhaps negated. -/
def readNegation : Nat → Limits → List (List Char) → Reading
  | 0, _, _ => .error "too deep"
  | fuel + 1, limits, args => do
      match args with
      | [] => .error "expected an expression"
      | word :: rest =>
          let text := String.ofList word
          if text == "!" || text == "-not" then
            let (c, rest, limits) ← readNegation fuel limits rest
            return (.negation c, rest, limits)
          else if text == "(" then
            let (c, rest, limits) ← readSequence fuel limits rest
            match rest with
            | [')'] :: rest => return (c, rest, limits)
            | _ =>
                .error ("invalid expression; I was expecting to find a ')' somewhere " ++
                  "but did not see one.")
          else readPrimary limits text word rest

/-- An expression without operators around it. -/
def readPrimary (limits : Limits) (text : String) (word : List Char) (rest : List (List Char)) :
    Reading := do
  if let some c := plain? text then
    let isInnerFirst := limits.isInnerFirst || text == "-delete"
    return (c, rest, { limits with isInnerFirst })
  else if text == "-depth" || text == "-d" then
    return (.constant true, rest, { limits with isInnerFirst := true })
  else if ["-exec", "-execdir", "-ok", "-okdir"].contains text then
    match readWords rest with
    | some (words, n, isAtEnd) =>
        let rest' := rest.drop n
        let isInside := text == "-execdir" || text == "-okdir"
        let asks := text == "-ok" || text == "-okdir"
        let c := if isAtEnd then .gather rest.length words else .call isInside asks words
        return (c, rest', limits)
    | none => .error (fault "missing argument to" word)
  else
    match rest with
    | [] =>
        if unaryOperators.contains text || text == "-maxdepth" || text == "-mindepth" then
          .error (fault "missing argument to" word)
        else .error (fault "unknown predicate" word)
    | operand :: rest =>
        let number? := (Text.digits? operand).map Text.number
        if text == "-maxdepth" || text == "-mindepth" then
          match number? with
          | some n =>
              return (.constant true, rest,
                if text == "-maxdepth" then { limits with deepest := some n }
                else { limits with shallowest := n })
          | none =>
              .error ("Expected a positive decimal integer argument to " ++ text ++ ", but got '" ++
                String.ofList operand ++ "'")
        else if text == "-regextype" then return (.constant true, rest, limits)
        else if unaryOperators.contains text then
          match unary? text operand with
          | some c => return (c, rest, limits)
          | none => .error (fault ("invalid argument to " ++ text ++ ":") operand)
        else .error (fault "unknown predicate" word)

end

/-- Does an argument begin an expression? -/
def beginsExpression (arg : List Char) : Bool :=
  arg.head? == some '-' && 2 ≤ arg.length || arg == ['('] || arg == ['!'] || arg == [',']

/-- The search that arguments describe, or what is wrong with them. -/
def ofArgs (args : List (List Char)) : Except String Search := do
  let flags := args.takeWhile fun arg => [['-', 'H'], ['-', 'L'], ['-', 'P']].contains arg
  let rest := args.drop flags.length
  let paths := rest.takeWhile (!beginsExpression ·)
  let words := rest.drop paths.length
  let limits : Limits := { deepest := none, shallowest := 0, isInnerFirst := false }
  let (criterion, behind, limits) ←
    if words.isEmpty then .ok (.print '\n', [], limits)
    else readSequence (6 * words.length + 6) limits words
  match behind with
  | word :: _ =>
      if word == [')'] then throw "invalid expression; you have too many ')'"
      else throw (fault "paths must precede expression:" word)
  | [] =>
      return {
        followsLinks := flags.getLast? == some ['-', 'L']
        followsFirst := flags.getLast?.any (· != ['-', 'P'])
        paths := if paths.isEmpty then [['.']] else paths
        criterion := if criterion.acts then criterion else .conjunction criterion (.print '\n')
        deepest := limits.deepest, shallowest := limits.shallowest
        isInnerFirst := limits.isInnerFirst }

end Search

end PlanOrbits.Shell
