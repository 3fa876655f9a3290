import PlanOrbits.Shell.Records.Memory
import PlanOrbits.Shell.Records.Reader

/-!
# Running record programs

The rules for the beginning are run first, then all others for each record, then
those for the end. The input is not read if there are only rules for the beginning.

What is printed is collected, and written when the program ends, or when it starts a
command. The evaluation runs on fuel: each nested call and each round of a loop
takes some.
-/

namespace PlanOrbits.Shell.Records

/-- What ends a list of statements early. -/
inductive Ending where
  /-- The rules go on with the next record. -/
  | nextRecord
  | exit
  | leave
  | again
  /-- A function returns a value. -/
  | back (v : Value)
  /-- The program cannot go on. -/
  | failed
  /-- The program does not end. -/
  | endless
  /-- The shell around the program cannot go on. -/
  | escaped (e : Escape)

/-- A computation of a program. -/
abbrev Runner (m : Type → Type) := Procedure Ending Memory m

/-- How much fuel a program has. -/
def fuelLimit : Nat := 1000000000

namespace Runner

variable {m : Type → Type} [Monad m] [Storage m]

/-- A computation of the shell around the program. -/
def ofAction {α : Type} (p : Action m α) : Runner m α :=
  Procedure.onPart Memory.shell (fun shell s => { s with shell }) .escaped p

/-- Stop the program with a status that says so. -/
def fail {α : Type} : Runner m α := do
  modify fun s => { s with status := 2 }
  throw .failed

/-! ## Output -/

/-- Write what was printed so far, but only whole blocks of the given size. A program that
cannot write cannot go on. -/
def release (size : Nat) : Runner m Unit := do
  let s ← get
  let count := s.outputSize / size * size
  if count != 0 then
    let text := s.output.reverse.flatten
    set { s with output := [text.drop count], outputSize := s.outputSize - count }
    if !(← ofAction (Action.tell (text.take count))) then
      modify fun s => { s with output := [], outputSize := 0 }
      fail

/-- Write what was printed so far. -/
def flush : Runner m Unit := release 1

/-- So much is written at once. -/
def blockSize : Nat := 4096

/-- So much is read at once. -/
def inputSize : Nat := 262144

/-- Print a text. It is held back until there is enough for a block. -/
def print (text : List Char) : Runner m Unit := do
  modify (·.write text)
  if blockSize ≤ (← get).outputSize then release blockSize

/-- Run a command on an input, and set the status of the shell. -/
def pipeInto (i : Interpreter m) (command input : List Char) : Runner m Unit :=
  ofAction (Action.started i (·.openText 0 .drain input) "sh".toList ["-c".toList, command])

/-- Give what was written to its file or command. -/
def deliver (i : Interpreter m) (target : Direction × List Char) (text : List Char) :
    Runner m Unit := do
  match target with
  | (.command, command) => pipeInto i command text
  | (.file isAppended, path) =>
      if path == "/dev/stderr".toList then ofAction do let _ ← Action.put 2 text
      else
        ofAction do
          let old ← if isAppended then Action.readFile? path else pure none
          let _ ← Action.writeFile path (old.getD [] ++ text)

/-- Close a file or a command; tells whether it was open. -/
def close (i : Interpreter m) (name : List Char) : Runner m Bool := do
  let s ← get
  let open? := s.written.find? (·.1.2 == name)
  let isRead := (s.sources.lookup name).isSome
  set { s with
    written := s.written.filter (·.1.2 != name), sources := s.sources.filter (·.1 != name) }
  if let some (target, text) := open? then
    flush
    deliver i target text
  return open?.isSome || isRead

/-- Write everything and close everything. -/
def closeAll (i : Interpreter m) : Runner m Unit := do
  for (target, text) in (← get).written do deliver i target text
  modify fun s => { s with written := [] }
  flush

/-- Print a text, or write it to a file or a command. -/
def put (target : Option (Direction × List Char)) (text : List Char) : Runner m Unit := do
  match target with
  | none => print text
  | some (direction, name) =>
      if name == "/dev/stdout".toList || name == ['-'] then print text
      else
        let isNew := (← get).written.all (·.1 != (direction, name))
        if isNew && direction == .command then flush
        modify (·.writeTo (direction, name) text)

/-! ## Input -/

/-- Open the next file, or the input if no file is named. Tells whether there is
anything more. An operand may also be an assignment. -/
def openNext : Nat → Runner m Bool
  | 0 => return false
  | fuel + 1 => do
      let s ← get
      match s.operands with
      | [] =>
          if s.isOpened then return false
          modify fun s =>
            { s.assign "FILENAME".toList (.text ['-']) with isFlowing := true, isOpened := true }
          return true
      | operand :: operands =>
          set { s with operands }
          let name := operand.takeWhile isNameChar
          match operand.drop name.length with
          | '=' :: value =>
              if name.head?.any isNameStart then
                modify (·.assign name (.input (resolveText value)))
                openNext fuel
              else openFile operand fuel
          | _ => openFile operand fuel
where
  /-- Open a file. -/
  openFile (path : List Char) (fuel : Nat) : Runner m Bool := do
    modify fun s => { s.assign "FILENAME".toList (.text path) with isOpened := true }
    modify (·.assign "FNR".toList (.number 0))
    if path == ['-'] || Action.isInputPath path then
      modify fun s => { s with isFlowing := true }
      return true
    else
      match ← ofAction (Action.readFile? path) with
      | some text =>
          modify fun s => { s with rest := text }
          return true
      | none =>
          modify fun s => { s with status := 2 }
          openNext fuel
  /-- The value of an assignment with its escapes resolved. -/
  resolveText (cs : List Char) : List Char :=
    ((Lexeme.readText? (cs.length + 2) (cs ++ ['"'])).map Prod.fst).getD cs

/-- Read the input until it holds a record, or to its end. -/
def fill : Nat → Runner m Unit
  | 0 => return
  | tries + 1 => do
      let s ← get
      let isFull :=
        match s.setting ['R', 'S'] with
        | [c] => s.rest.contains c
        | _ => false
      if s.isFlowing && !isFull then
        match ← ofAction (Action.takeMuch Action.patience inputSize []) with
        | [] => modify fun s => { s with isFlowing := false }
        | text =>
            modify fun s => { s with rest := s.rest ++ text }
            fill tries

/-- The next record of the input. -/
def nextRecord? : Nat → Runner m (Option (List Char))
  | 0 => return none
  | fuel + 1 => do
      fill Action.patience
      let s ← get
      let separator := s.setting ['R', 'S']
      let text := beforeRecord separator s.rest
      if text.isEmpty then
        if ← openNext (s.operands.length + 1) then nextRecord? fuel else return none
      else
        let (record, rest) := cutRecord separator text
        set { s with rest }
        modify fun s => (s.increment ['N', 'R']).increment ['F', 'N', 'R']
        return some record

/-- The next record of a file, or of the output of a command. -/
def nextRecordOf? (i : Interpreter m) (isCommand : Bool) (name : List Char) :
    Runner m (Option (Option (List Char))) := do
  let s ← get
  let text? ←
    match s.sources.lookup name with
    | some text => pure (some text)
    | none =>
        if isCommand then
          flush
          pure (some (← ofAction (Action.captured i do
            modify fun s => { s with isAlone := true }
            i.program "sh".toList ["-c".toList, name])))
        else
          ofAction (if name == ['-'] then return some (← Action.takeInput)
            else Action.readFile? name)
  match text? with
  | none => return none
  | some text =>
      let separator := s.setting ['R', 'S']
      let text := beforeRecord separator text
      let (record, rest) := cutRecord separator text
      modify fun s => { s with sources := (name, rest) :: s.sources.filter (·.1 != name) }
      return some (if text.isEmpty then none else some record)

/-! ## Functions -/

/-- The characters of a text from a place on, so many of them; fractions do not count. As
far as the place is in front of the text, there are so many more. -/
def substring (cs : List Char) (start : Float) (length : Option Float) : List Char :=
  let whole := fun (x : Float) =>
    if x.isNaN then (0 : Int) else Arithmetic.clamp (Rounded.truncated x)
  let first := whole start
  let rest := cs.drop (first - 1).toNat
  match length with
  | none => rest
  | some n => rest.take (whole n - min first 0).toNat

/-- The place of a text in another one, counted from one; zero if it is not there. -/
def indexOf (cs part : List Char) : Nat :=
  match (List.range (cs.length + 1)).find? fun n => part.isPrefixOf (cs.drop n) with
  | some n => n + 1
  | none => 0

/-- The value of a function of a number. -/
def ofReal (name : String) (x : Float) : Float :=
  match name with
  | "sin" => x.sin
  | "cos" => x.cos
  | "exp" => x.exp
  | "log" => x.log
  | "sqrt" => x.sqrt
  | _ => if x < 0 then x.ceil else x.floor

/-! ## Evaluation -/

mutual

/-- The value of an expression. -/
def eval (p : Program) (i : Interpreter m) : Nat → Expr → Runner m Value
  | 0, _ => throw .endless
  | fuel + 1, e => do
      match e with
      | .number x => return .number x
      | .text cs => return .text cs
      | .grouped e => eval p i fuel e
      | .pattern cs => return .ofBool ((patternOf cs).occursIn (← get).record)
      | .name cs => return (← get).value cs
      | .field e =>
          let n ← eval p i fuel e
          return (← get).field (Rounded.truncated n.toReal).toNat
      | .element array indices =>
          let index ← indexText p i fuel indices
          let (id, s) := (← get).tableOf array
          match (s.elements id).get? index with
          | some v =>
              set s
              return v
          | none =>
              set (s.setElements id ((s.elements id).insert index .unset))
              return .unset
      | .assign target operator value =>
          let v ← eval p i fuel value
          let v ←
            match operator with
            | none => pure v
            | some o =>
                let old ← eval p i fuel target
                pure (Value.number (calculate o old.toReal v.toReal))
          store p i fuel target v
          return v
      | .step target amount isBefore =>
          let old := (← eval p i fuel target).toReal
          store p i fuel target (.number (old + amount))
          return .number (if isBefore then old + amount else old)
      | .negative e => return .number (-(← eval p i fuel e).toReal)
      | .positive e => return .number (← eval p i fuel e).toReal
      | .negation e => return .ofBool !(← eval p i fuel e).isTrue
      | .binary o a b =>
          let x ← eval p i fuel a
          let y ← eval p i fuel b
          return .number (calculate o x.toReal y.toReal)
      | .joined a b =>
          let x ← eval p i fuel a
          let y ← eval p i fuel b
          let format := (← get).format
          return x.append format (y.toText format)
      | .compared operator a b =>
          let x ← eval p i fuel a
          let y ← eval p i fuel b
          let order := Value.compare (← get).format x y
          return .ofBool <|
            match operator with
            | "==" => order == .eq
            | "!=" => order != .eq
            | "<" => order == .lt
            | "<=" => order != .gt
            | ">" => order == .gt
            | _ => order != .lt
      | .occurs a pattern =>
          let text ← evalText p i fuel a
          return .ofBool ((← patternFrom p i fuel pattern).occursIn text)
      | .isIn indices array =>
          let index ← indexText p i fuel indices
          let (id, s) := (← get).tableOf array
          set s
          return .ofBool ((s.elements id).contains index)
      | .conjunction a b =>
          if !(← eval p i fuel a).isTrue then return .ofBool false
          return .ofBool (← eval p i fuel b).isTrue
      | .disjunction a b =>
          if (← eval p i fuel a).isTrue then return .ofBool true
          return .ofBool (← eval p i fuel b).isTrue
      | .choice test yes no =>
          if (← eval p i fuel test).isTrue then eval p i fuel yes else eval p i fuel no
      | .call name args => call p i fuel name args
      | .builtin name args => builtin p i fuel name args
      | .nextRecord target file command => getRecord p i fuel target file command

/-- The value of an expression as a text. -/
def evalText (p : Program) (i : Interpreter m) : Nat → Expr → Runner m (List Char)
  | 0, _ => throw .endless
  | fuel + 1, e => do
      let v ← eval p i fuel e
      return v.toText (← get).format

/-- The values of expressions. -/
def evalAll (p : Program) (i : Interpreter m) : Nat → List Expr → Runner m (List Value)
  | 0, _ => throw .endless
  | _, [] => return []
  | fuel + 1, e :: es => do
      let v ← eval p i fuel e
      return v :: (← evalAll p i fuel es)

/-- The text of indices. -/
def indexText (p : Program) (i : Interpreter m) : Nat → List Expr → Runner m (List Char)
  | 0, _ => throw .endless
  | fuel + 1, es => do
      let vs ← evalAll p i fuel es
      let s ← get
      return List.intercalate (s.setting ['S', 'U', 'B', 'S', 'E', 'P'])
        (vs.map (·.toText s.format))

/-- The pattern that an expression denotes. -/
def patternFrom (p : Program) (i : Interpreter m) : Nat → Expr → Runner m Pattern
  | 0, _ => throw .endless
  | fuel + 1, e => do
      match e with
      | .pattern cs => return patternOf cs
      | e => return patternOf (← evalText p i fuel e)

/-- Give the target of an assignment a value. -/
def store (p : Program) (i : Interpreter m) : Nat → Expr → Value → Runner m Unit
  | 0, _, _ => throw .endless
  | fuel + 1, target, v => do
      match target with
      | .name cs => modify (·.assign cs v)
      | .field e =>
          let n ← eval p i fuel e
          modify (·.setField (Rounded.truncated n.toReal).toNat v)
      | .element array indices =>
          let index ← indexText p i fuel indices
          let (id, s) := (← get).tableOf array
          set (s.setElements id ((s.elements id).insert index v))
      | _ => return

/-- Read a record; the value is one, zero at the end, and less if it is not
possible. -/
def getRecord (p : Program) (i : Interpreter m) :
    Nat → (target file command : Option Expr) → Runner m Value
  | 0, _, _, _ => throw .endless
  | fuel + 1, target, file, command => do
      let record? ←
        match command.or file with
        | some name => nextRecordOf? i command.isSome (← evalText p i fuel name)
        | none => pure (some (← nextRecord? (fuel + 1)))
      match record? with
      | none => return .number (-1)
      | some none => return .number 0
      | some (some record) =>
          if command.isSome then modify (·.increment ['N', 'R'])
          match target with
          | some target => store p i fuel target (.input record)
          | none => modify (·.setRecord record)
          return .number 1

/-- The value of a function of the program. Arrays are handed over as they are, all
else as values. -/
def call (p : Program) (i : Interpreter m) : Nat → List Char → List Expr → Runner m Value
  | 0, _, _ => throw .endless
  | fuel + 1, name, args => do
      match p.functions.find? (·.name == name) with
      | none => fail
      | some f =>
          let slots ← args.mapM fun e => do
            match e with
            | .name cs =>
                let v := (← get).value cs
                match v with
                | .unset =>
                    let (id, s) := (← get).tableOf cs
                    set s
                    return { value := .unset, table := some id }
                | v => return ({ value := v, table := none } : Slot)
            | e => return ({ value := ← eval p i fuel e, table := none } : Slot)
          let outer := (← get).frame
          let missing := f.parameters.drop slots.length
          let frame := f.parameters.zip slots ++
            missing.map fun cs => (cs, { value := .unset, table := none })
          modify fun s => { s with frame }
          let answer ←
            tryCatch (do
              runAll p i fuel f.body
              return Value.unset) fun ending =>
                match ending with
                | .back v => return v
                | ending => throw ending
          modify fun s => { s with frame := outer }
          return answer

/-- The value of a function that is always there. -/
def builtin (p : Program) (i : Interpreter m) : Nat → String → List Expr → Runner m Value
  | 0, _, _ => throw .endless
  | fuel + 1, name, args => do
      match name, args with
      | "length", [] => return .ofNat (← get).record.length
      | "length", [.name cs] =>
          let s ← get
          match s.value cs, (s.slot cs).table with
          | .unset, some id => return .ofNat (s.elements id).size
          | v, _ => return .ofNat (v.toText s.format).length
      | "length", e :: _ => return .ofNat (← evalText p i fuel e).length
      | "substr", text :: start :: more =>
          let cs ← evalText p i fuel text
          let x := (← eval p i fuel start).toReal
          match more with
          | [] => return .text (substring cs x none)
          | n :: _ => return .text (substring cs x (some (← eval p i fuel n).toReal))
      | "index", [a, b] =>
          let cs ← evalText p i fuel a
          return .ofNat (indexOf cs (← evalText p i fuel b))
      | "split", text :: .name array :: more =>
          let cs ← evalText p i fuel text
          let parts ←
            match more with
            | [] => pure (fieldsOf ((← get).setting ['F', 'S']) false cs)
            | .pattern q :: _ =>
                pure (if cs.isEmpty then [] else piecesBetween (patternOf q) (cs.length + 1) cs)
            | e :: _ => pure (fieldsOf (← evalText p i fuel e) false cs)
          let (id, s) := (← get).tableOf array
          let numbered := (List.range parts.length).zip parts
          let table := numbered.foldl (fun (t : Table) (n, part) =>
            t.insert (Text.decimal (n + 1)) (.input part)) Table.empty
          set (s.setElements id table)
          return .ofNat parts.length
      | "sub", pattern :: new :: more => substitute p i fuel false pattern new more
      | "gsub", pattern :: new :: more => substitute p i fuel true pattern new more
      | "match", [text, pattern] =>
          let cs ← evalText p i fuel text
          let q ← patternFrom p i fuel pattern
          let (start, length) : Float × Float :=
            match q.occurrence? none cs with
            | some o => (o.before.length.toFloat + 1, o.text.length.toFloat)
            | none => (0, -1)
          modify fun s =>
            (s.assign "RSTART".toList (.number start)).assign "RLENGTH".toList (.number length)
          return .number start
      | "sprintf", args => return .text (← formatted p i fuel args)
      | "tolower", e :: _ => return .text ((← evalText p i fuel e).map Char.toLower)
      | "toupper", e :: _ => return .text ((← evalText p i fuel e).map Char.toUpper)
      | "atan2", [a, b] =>
          let y := (← eval p i fuel a).toReal
          return .number (y.atan2 (← eval p i fuel b).toReal)
      | "system", e :: _ =>
          let command ← evalText p i fuel e
          flush
          let before ← ofAction get
          ofAction (Action.started i id "sh".toList ["-c".toList, command])
          let status := (← ofAction get).status
          ofAction (Action.finish before.status)
          return .ofNat status
      | "close", e :: _ =>
          return .number (if ← close i (← evalText p i fuel e) then 0 else -1)
      | "fflush", _ =>
          flush
          return .number 0
      | "rand", _ | "srand", _ => return .number 0
      | name, e :: _ => return .number (ofReal name (← eval p i fuel e).toReal)
      | _, [] => return .unset

/-- Replace what occurs in the target, or else in the record; the value is the
number of replacements. -/
def substitute (p : Program) (i : Interpreter m) :
    Nat → Bool → (pattern new : Expr) → List Expr → Runner m Value
  | 0, _, _, _, _ => throw .endless
  | fuel + 1, isGlobal, pattern, new, more => do
      let q ← patternFrom p i fuel pattern
      let cs ← evalText p i fuel new
      let target := more.headD (.field (.number 0))
      let text ← evalText p i fuel target
      let (text, n) := replaceIn q isGlobal cs (2 * text.length + 2) none false text
      if n != 0 then store p i fuel target (.text text)
      return .ofNat n

/-- A formatted text. -/
def formatted (p : Program) (i : Interpreter m) : Nat → List Expr → Runner m (List Char)
  | 0, _ => throw .endless
  | _, [] => return []
  | fuel + 1, e :: es => do
      let format ← evalText p i fuel e
      let vs ← evalAll p i fuel es
      let s ← get
      let (parts, _) := formatParts .none (format.length + 1) format
      let needed := parts.foldl (fun n part =>
        match part with
        | .text _ => n
        | .conversion c => n + 1 + c.placesTaken) 0
      if vs.length < needed then fail
      let run := useFormat (Value.unset.argument s.format) parts (vs.map (·.argument s.format))
      return run.output

/-- The file or command to which is written. -/
def targetOf (p : Program) (i : Interpreter m) :
    Nat → Option (Direction × Expr) → Runner m (Option (Direction × List Char))
  | 0, _ => throw .endless
  | _, none => return none
  | fuel + 1, some (direction, e) => return some (direction, ← evalText p i fuel e)

/-- Run a statement. -/
def run (p : Program) (i : Interpreter m) : Nat → Statement → Runner m Unit
  | 0, _ => throw .endless
  | fuel + 1, statement => do
      match statement with
      | .expression e => let _ ← eval p i fuel e
      | .print args target =>
          let vs ← evalAll p i fuel args
          let target ← targetOf p i fuel target
          let s ← get
          let format := s.setting ['O', 'F', 'M', 'T']
          let text :=
            if args.isEmpty then s.record
            else List.intercalate (s.setting ['O', 'F', 'S']) (vs.map (·.toText format))
          put target (text ++ s.setting ['O', 'R', 'S'])
      | .formatted args target =>
          let text ← formatted p i fuel args
          put (← targetOf p i fuel target) text
      | .conditional test yes no =>
          if (← eval p i fuel test).isTrue then runAll p i fuel yes else runAll p i fuel no
      | .loop test body => rounds p i fuel (some test) body []
      | .loopBehind body test =>
          if ← goesOn p i fuel body then rounds p i fuel (some test) body []
      | .count start test step body =>
          runAll p i fuel start
          rounds p i fuel test body step
      | .each name array body =>
          let (id, s) := (← get).tableOf array
          set s
          visit p i fuel name (s.elements id).indices body
      | .block body => runAll p i fuel body
      | .nextRecord => throw .nextRecord
      | .exit status =>
          if let some e := status then
            let v ← eval p i fuel e
            modify fun s => { s with status := (Rounded.truncated v.toReal).toNat % 256 }
          throw .exit
      | .leave => throw .leave
      | .again => throw .again
      | .back none => throw (.back .unset)
      | .back (some e) => throw (.back (← eval p i fuel e))
      | .delete array [] =>
          let (id, s) := (← get).tableOf array
          set (s.setElements id Table.empty)
      | .delete array indices =>
          let index ← indexText p i fuel indices
          let (id, s) := (← get).tableOf array
          set (s.setElements id ((s.elements id).erase index))

/-- Run statements one after the other. -/
def runAll (p : Program) (i : Interpreter m) : Nat → List Statement → Runner m Unit
  | 0, _ => throw .endless
  | _, [] => return
  | fuel + 1, statement :: rest => do
      run p i fuel statement
      runAll p i fuel rest

/-- Run the body of a loop once. Does the loop go on? -/
def goesOn (p : Program) (i : Interpreter m) : Nat → List Statement → Runner m Bool
  | 0, _ => throw .endless
  | fuel + 1, body =>
      tryCatch (do
        runAll p i fuel body
        return true) fun ending =>
          match ending with
          | .leave => return false
          | .again => return true
          | ending => throw ending

/-- Run a loop. -/
def rounds (p : Program) (i : Interpreter m) :
    Nat → Option Expr → (body step : List Statement) → Runner m Unit
  | 0, _, _, _ => throw .endless
  | fuel + 1, test, body, step => do
      let round := fun count => do
        let holds ←
          match test with
          | none => pure true
          | some e => pure (← eval p i fuel e).isTrue
        if !holds then return false
        if !(← goesOn p i fuel body) then return false
        runAll p i fuel step
        if Action.isSlow count then ofAction (Action.spend count false)
        return true
      if !(← Procedure.iterate round fuel 0) then throw .endless

/-- Run a body for the indices of an array. -/
def visit (p : Program) (i : Interpreter m) :
    Nat → List Char → List (List Char) → List Statement → Runner m Unit
  | 0, _, _, _ => throw .endless
  | fuel + 1, name, indices, body =>
      Procedure.forWhile (fun index => do
        modify (·.assign name (.input index))
        goesOn p i fuel body) indices

end

/-! ## Rules -/

/-- Does a rule apply to the record? Also begins and ends its range. -/
def applies (p : Program) (i : Interpreter m) (place : Nat) : Guard → Runner m Bool
  | .beforeAll | .afterAll => return false
  | .always => return true
  | .holds e => return (← eval p i fuelLimit e).isTrue
  | .range first last => do
      let isInside := (← get).ranges.contains place
      if isInside || (← eval p i fuelLimit first).isTrue then
        let isLast := (← eval p i fuelLimit last).isTrue
        modify fun s =>
          let others := s.ranges.filter (· != place)
          { s with ranges := if isLast then others else place :: others }
        return true
      else return false

/-- Run the body of a rule. -/
def runRule (p : Program) (i : Interpreter m) (rule : Rule) : Runner m Unit :=
  match rule.body with
  | some body => runAll p i fuelLimit body
  | none => run p i fuelLimit (.print [] none)

/-- Run all rules on the record. -/
def runRules (p : Program) (i : Interpreter m) : Nat → List Rule → Runner m Unit
  | _, [] => return
  | place, rule :: rules => do
      if ← applies p i place rule.guard then runRule p i rule
      runRules p i (place + 1) rules

/-- Run the rules on all records. -/
def runRecords (p : Program) (i : Interpreter m) : Runner m Unit := do
  let round := fun (_ : Nat) => do
    match ← nextRecord? fuelLimit with
    | none => return false
    | some record =>
        modify (·.setRecord record)
        tryCatch (runRules p i 0 p.rules) fun ending =>
          match ending with
          | .nextRecord => return
          | ending => throw ending
        return true
  if !(← Procedure.iterate round fuelLimit 0) then throw .endless

/-- Run a part of a program. Is it to go on? -/
def reaches (part : Runner m Unit) : Runner m Bool :=
  tryCatch (do
    part
    return true) fun ending =>
      match ending with
      | .exit | .failed | .endless => return false
      | .escaped e => throw (.escaped e)
      | _ => return true

/-- Run a program. -/
def runProgram (p : Program) (i : Interpreter m) : Runner m Unit := do
  let isFirst := fun (r : Rule) => match r.guard with | .beforeAll => true | _ => false
  let isLast := fun (r : Rule) => match r.guard with | .afterAll => true | _ => false
  let goesOn ← reaches ((p.rules.filter isFirst).forM (runRule p i))
  let hasRecords := p.rules.any fun r => !isFirst r
  if goesOn && hasRecords then
    let _ ← reaches (runRecords p i)
  if hasRecords && (← get).status != 2 then
    let _ ← reaches ((p.rules.filter isLast).forM (runRule p i))
  closeAll i

end Runner

/-! ## Arguments -/

/-- The flags of the program. -/
def table : FlagTable where
  plain := ""
  valued := "FvfW"
  long := []
  isMixed := false

/-- Run a record program with arguments: flags, the program itself unless a file
holds it, and the files to be read. -/
def call {m : Type → Type} [Monad m] [Storage m] (i : Interpreter m) (args : List (List Char)) :
    Action m Unit := do
  match Flags.ofArgs? table args with
  | none => Action.finish 2
  | some f =>
      let files ← (f.values 'f').mapM Action.readFile?
      let (source, operands) :=
        match files, f.operands with
        | [], source :: operands => (some source, operands)
        | [], [] => (none, [])
        | files, operands => ((files.mapM id).map (List.intercalate ['\n']), operands)
      match source.bind Program.ofChars? with
      | none => Action.finish 2
      | some p =>
          let resolve := Runner.openNext.resolveText
          let shell ← get
          let s := Memory.start shell operands
          let s :=
            match f.value? 'F' with
            | some separator => s.assign ['F', 'S'] (.text (resolve separator))
            | none => s
          let s := (f.values 'v').foldl (fun (s : Memory) (assignment : List Char) =>
            match Text.cutAt? '=' assignment with
            | some (name, value) => s.assign name (.input (resolve value))
            | none => s) s
          let arguments := "awk".toList :: operands
          let (id, s) := s.tableOf "ARGV".toList
          let s := s.setElements id (((List.range arguments.length).zip arguments).foldl
            (fun (t : Table) (n, arg) => t.insert (Text.decimal n) (.input arg)) Table.empty)
          let s := s.assign "ARGC".toList (.ofNat arguments.length)
          let (id, s) := s.tableOf "ENVIRON".toList
          let s := s.setElements id (shell.exports.foldl (fun (t : Table) name =>
            (shell.binding? name).elim t fun value => t.insert name (.input value)) Table.empty)
          let result ← (Procedure.run (Runner.runProgram p i) s : Routine m _)
          set result.state.shell
          match result with
          | .left (.escaped e) _ => throw e
          | _ => Action.finish result.state.status

end PlanOrbits.Shell.Records
