import PlanOrbits.Shell.Builtin
import PlanOrbits.Shell.Calculation
import PlanOrbits.Shell.Counting
import PlanOrbits.Shell.Factoring
import PlanOrbits.Shell.Records.Run
import PlanOrbits.Shell.Utility.Comparing
import PlanOrbits.Shell.Utility.Digests
import PlanOrbits.Shell.Utility.Editing
import PlanOrbits.Shell.Utility.Files
import PlanOrbits.Shell.Utility.Filters
import PlanOrbits.Shell.Utility.Listing
import PlanOrbits.Shell.Utility.Parting
import PlanOrbits.Shell.Utility.Paths
import PlanOrbits.Shell.Utility.Searching
import PlanOrbits.Shell.Utility.Surroundings

/-!
# Programs

What can be started by its name: the filters, the programs about files, those that
write or calculate, and those that start another program with more arguments, in
another environment, or only for a while.
-/

namespace PlanOrbits.Shell.Action

variable {m : Type → Type} [Monad m] [Storage m]

/-! ## Writing -/

/-- Write a text again and again, as long as it can be written. -/
def repeatText (text : List Char) : Nat → Action m Unit
  | 0 => return
  | times + 1 => do
      if ← tell text then
        pass 1
        repeatText text times
      else finish 1

/-- Write a line again and again. -/
def yes (args : List (List Char)) : Action m Unit := do
  let line := Line.ended (if args.isEmpty then ['y'] else List.intercalate [' '] args)
  repeatText (List.replicate (8192 / line.length + 1) line).flatten patience

/-- Write the numbers of a range. -/
def range (args : List (List Char)) : Action m Unit := do
  match Counting.ofArgs? args with
  | some r => answer r.text
  | none => finish 1

/-- Write the value of an expression. -/
def calculate (args : List (List Char)) : Action m Unit := do
  match Calculation.ofArgs? (if args.head? == some ['-', '-'] then args.tail else args) with
  | some value =>
      let isWritten ← tell (Line.ended value)
      finish (if !isWritten then 2 else if Calculation.isNull value then 1 else 0)
  | none => finish 2

/-- Write the prime factors of numbers, which are arguments or words of the input. -/
def factorNumbers (args : List (List Char)) : Action m Unit := do
  let table : FlagTable :=
    { plain := "h", valued := "", long := [("exponents", 'h')], isMixed := true }
  match Flags.ofArgs? table args with
  | none => finish 1
  | some f =>
      let words ← if f.operands.isEmpty then Text.words <$> takeInput else pure f.operands
      let numbers := words.map fun word =>
        let word := Text.trim word
        (Text.digits? (if word.head? == some '+' then word.tail else word)).map Text.number
      for (word, number?) in words.zip numbers do
        match number? with
        | some n => say (Factoring.line (f.has 'h') n)
        | none => report "factor" ("'" ++ shown word ++ "' is not a valid positive integer")
      succeed (numbers.all Option.isSome)

/-! ## Time -/

/-- The milliseconds of one unit of time. -/
def unit? : List Char → Option Nat
  | [] | ['s'] => some 1000
  | ['m'] => some 60000
  | ['h'] => some 3600000
  | ['d'] => some 86400000
  | _ => none

/-- The milliseconds of a duration, a decimal number with a unit. -/
def duration? (cs : List Char) : Option Nat := do
  if ["inf".toList, "infinity".toList].contains cs then return eternity
  let whole := cs.takeWhile Text.isDigit
  let behind := cs.drop whole.length
  let (fraction, suffix) :=
    match behind with
    | '.' :: rest => (rest.takeWhile Text.isDigit, rest.dropWhile Text.isDigit)
    | rest => ([], rest)
  let digits ← Text.digits? (whole ++ fraction)
  return Text.number digits * (← unit? suffix) / Nat.pow 10 fraction.length

/-- Wait. -/
def sleep (args : List (List Char)) : Action m Unit := do
  match args.mapM duration? with
  | some (d :: ds) =>
      pass (ds.foldl (· + ·) d)
      finish 0
  | _ =>
      report "sleep" "missing operand"
      finish 1

/-! ## Starting other programs -/

/-- The flags of the program that ends others. -/
def timeoutTable : FlagTable where
  plain := "v"
  valued := "sk"
  long := [("signal", 's'), ("kill-after", 'k'), ("preserve-status", 'p'), ("foreground", 'f'),
    ("verbose", 'v')]
  isMixed := false

/-- Send a signal to a process, and to its whole group unless a flag forbids it. -/
def endGroup (f : Flags) (signal : Signal) (number : Nat) : Action m Unit := do
  modify fun s => { s with system := s.recorded.system.send signal number }
  if !f.has 'f' then
    modify fun s =>
      let except := if signal = .kill then 0 else s.process
      { s with system := s.system.sendGroup signal s.process except }
    leaveIfEnded

/-- Start a program, and end it when its time is over. -/
def timeout (i : Interpreter m) (args : List (List Char)) : Action m Unit := do
  match Flags.ofArgs? timeoutTable args with
  | some { operands := time :: name :: args, given } =>
      let f : Flags := { given, operands := [] }
      let signal? := (f.value? 's').elim (some Signal.terminate) Signal.ofText?
      let longer? := (f.value? 'k').elim (some eternity) duration?
      match duration? time, signal?, longer? with
      | some limit, some signal, some longer =>
          if !f.has 'f' then
            modify fun s =>
              { s with system := s.system.update s.process fun p => { p with group := p.number } }
          let child := (← get).forked
          launch i child do
            modify fun s => { s with isAlone := true }
            i.program name args
          let now := (← get).clock
          let limit := if limit = 0 then eternity else limit
          let isInTime ← awaitUntil child.process (now + limit) patience
          if !isInTime then
            endGroup f signal child.process
            if !(← awaitUntil child.process (now + limit + longer) patience) then
              endGroup f .kill child.process
            let _ ← awaitEnd false child.process patience
          let status := (← get).statusOf child.process
          finish (if isInTime || f.has 'p' || status = Signal.kill.status then status else 124)
      | _, _, _ => finish 125
  | _ => finish 125

/-- The assignments in front of a program. -/
def assignments (args : List (List Char)) : List (List Char × List Char) :=
  ((args.map fun arg => Text.cutAt? '=' arg).takeWhile Option.isSome).filterMap id

/-- The words of an input, in which quotes and backslashes protect characters. -/
def inputWords : Nat → (word : Option (List Char)) → List Char → List (List Char)
  | 0, _, _ => []
  | _, word, [] => word.toList.map List.reverse
  | fuel + 1, word, c :: cs =>
      if c == ' ' || c == '\t' || c == '\n' then
        word.toList.map List.reverse ++ inputWords fuel none cs
      else if c == '\'' || c == '"' then
        let text := cs.takeWhile (· != c)
        inputWords fuel (some (text.reverse ++ word.getD [])) (cs.drop (text.length + 1))
      else
        match c, cs with
        | '\\', d :: cs => inputWords fuel (some (d :: word.getD [])) cs
        | _, _ => inputWords fuel (some (c :: word.getD [])) cs

/-- The flags of the program that changes the environment. -/
def environmentTable : FlagTable where
  plain := "i0v"
  valued := "uCS"
  long := [("ignore-environment", 'i'), ("unset", 'u'), ("null", '0'), ("chdir", 'C'),
    ("split-string", 'S'), ("debug", 'v')]
  isMixed := false

/-- The flags and operands of the program that changes the environment. The words of a
text that is split stand in front of the operands, and a dash alone is a flag. -/
def environmentFlags? (args : List (List Char)) : Option Flags := do
  let f ← Flags.ofArgs? environmentTable args
  let text := (f.value? 'S').getD []
  let f := { f with operands := inputWords (text.length + 1) none text ++ f.operands }
  if f.operands.head? == some ['-'] then
    return { given := ('i', []) :: f.given, operands := f.operands.tail }
  else return f

/-- Start a program in another environment, or list the environment. -/
def environment (i : Interpreter m) (args : List (List Char)) : Action m Unit := do
  match environmentFlags? args with
  | none => finish 125
  | some f =>
      let given := assignments f.operands
      modify fun s =>
        let s := if f.has 'i' then { s with exports := [] } else s
        let s := { s with exports := s.exports.filter (!(f.values 'u').contains ·) }
        given.foldl (fun (s : Machine) (name, value) =>
          { s.assign name value with exports := s.exports.filter (· != name) ++ [name] }) s
      if let some path := f.value? 'C' then
        modify fun s =>
          { s with directory :=
              if path.head? == some '/' then path else inDirectory s.directory path }
      match f.operands.drop given.length with
      | [] =>
          let s ← get
          let mark := if f.has '0' then '\x00' else '\n'
          answer (s.exports.flatMap fun name => name ++ '=' :: s.value name ++ [mark])
      | name :: args => i.program name args

/-- Put a text in the place of a marker wherever it stands. -/
def putFor (marker text : List Char) : Nat → List Char → List Char
  | 0, cs => cs
  | _, [] => []
  | fuel + 1, c :: cs =>
      if !marker.isEmpty && marker.isPrefixOf (c :: cs) then
        text ++ putFor marker text fuel ((c :: cs).drop marker.length)
      else c :: putFor marker text fuel cs

/-- The flags of the program that turns input into arguments. -/
def argumentsTable : FlagTable where
  plain := "0rtxp"
  valued := "nILPdsE"
  long := [("null", '0'), ("no-run-if-empty", 'r'), ("max-args", 'n'), ("replace", 'I'),
    ("max-lines", 'L'), ("max-procs", 'P'), ("delimiter", 'd')]
  isMixed := false

/-- Start a program with arguments from the input. -/
def withArguments (i : Interpreter m) (args : List (List Char)) : Action m Unit := do
  match Flags.ofArgs? argumentsTable args with
  | none => finish 1
  | some f =>
      let text ← takeInput
      let delimiter? :=
        if f.has '0' then some '\x00'
        else (f.value? 'd').bind fun cs => (CharSet.readChar? cs).map Prod.fst
      let lines := (Line.all text).filter fun line => !(Text.trim line).isEmpty
      let items :=
        match delimiter? with
        | some c =>
            let pieces := Text.pieces (· == c) text
            if pieces.getLast? == some [] then pieces.dropLast else pieces
        | none =>
            if f.has 'I' then lines.map (·.dropWhile fun c => c == ' ' || c == '\t')
            else inputWords (text.length + 1) none text
      let (name, fixed) :=
        match f.operands with
        | [] => ("echo".toList, [])
        | name :: fixed => (name, fixed)
      let calls :=
        match f.value? 'I' with
        | some marker =>
            items.map fun item => fixed.map fun arg => putFor marker item (arg.length + 1) arg
        | none =>
            if f.has 'L' then
              let size := max 1 ((f.number? 'L' 1).getD 1)
              (groupsOf size lines.length lines).map fun ls =>
                fixed ++ ls.flatMap fun l => inputWords (l.length + 1) none l
            else if f.has 'n' then
              let size := max 1 ((f.number? 'n' 1).getD 1)
              (groupsOf size items.length items).map (fixed ++ ·)
            else [fixed ++ items]
      let calls :=
        if items.isEmpty then (if f.has 'r' || f.has 'I' then [] else [fixed]) else calls
      let statuses ← calls.mapM fun args => do
        started i (·.setChannel 0 (some .nowhere)) name args
        return (← get).status
      finish (if statuses.contains 127 then 127 else if statuses.any (· != 0) then 123 else 0)

/-- Start a program whose name stands behind flags. Such a program may lead a group of its
own. -/
def wrapped (i : Interpreter m) (valued : String) (isLeader : Bool) (args : List (List Char)) :
    Action m Unit := do
  if isLeader then
    modify fun s =>
      { s with system := s.system.update s.process fun p => { p with group := p.number } }
  let table : FlagTable := { plain := "cfw", valued, long := [], isMixed := false }
  match Flags.ofArgs? table args with
  | some { operands := name :: args, .. } => i.program name args
  | _ => finish 125

/-! ## Shells -/

/-- The arguments of a shell: options, then a script after the option `c`, or else
the path of a script; and the parameters of the script. -/
structure Invocation where
  flags : List Char
  /-- The script itself, or the path of the file that holds it. -/
  source : Option (List Char)
  parameters : List (List Char)

/-- The invocation with the given arguments. -/
def Invocation.ofArgs (name : List Char) (args : List (List Char)) : Invocation :=
  let isFlag := fun (arg : List Char) => arg.head? == some '-' && 2 ≤ arg.length
  let written := args.takeWhile isFlag
  let flags := written.flatMap List.tail
  -- The letter for a named option takes the next argument.
  let rest := (args.drop written.length).drop (if flags.contains 'o' then 1 else 0)
  match rest with
  | [] => { flags, source := none, parameters := [name] }
  | source :: rest =>
      if flags.contains 'c' then
        { flags, source := some source, parameters := if rest.isEmpty then [name] else rest }
      else if flags.contains 's' then
        { flags, source := none, parameters := name :: source :: rest }
      else { flags, source := some source, parameters := source :: rest }

/-- The state of a new shell: of all variables it knows only those that programs can
see. -/
def newShell (invocation : Invocation) (s : Machine) : Machine :=
  { s with
    number := s.process
    isAlone := false
    bindings := Machine.ownBindings ((s.system.process? s.process).elim 0 (·.parent)) s.directory
      (s.bindings.filter (s.exports.contains ·.1))
    constants := [], functions := [], locals := [], traps := []
    parameters := invocation.parameters, loops := 0, tests := 0, status := 0
    lastJob := 0, aliases := [], located := []
    switches :=
      let letters :=
        if invocation.source.isNone then 's' :: invocation.flags else invocation.flags
      letters.filterMap Switch.ofLetter? }

/-- Run a shell. Without a script its input is the script. -/
def shell (i : Interpreter m) (name : List Char) (args : List (List Char)) : Action m Unit := do
  let invocation := Invocation.ofArgs name args
  modify (newShell invocation)
  match invocation.source with
  | none => i.script (← takeInput)
  | some source =>
      if invocation.flags.contains 'c' then
        modify fun s => { s with isAlone := source.getLast? != some '\n' }
        i.script source
      else
        match ← readFile? source with
        | some script => i.script script
        | none =>
            complain ("0: cannot open " ++ String.ofList source ++ ": No such file")
            finish 2

/-! ## All programs -/

/-- The program with a name, if there is one. -/
def program? (i : Interpreter m) (name : String) : Option (List (List Char) → Action m Unit) :=
  match name with
  | "true" => some fun _ => finish 0
  | "false" => some fun _ => finish 1
  | "echo" => some fun args => answer (plainEchoText args)
  | "printf" => some fun args => do
      printf .hexadecimal args
      modify fun s => { s with status := min 1 s.status }
  | "test" => some (test "test")
  | "[" => some bracketTest
  | "yes" => some yes
  | "seq" => some range
  | "expr" => some calculate
  | "factor" => some factorNumbers
  | "sleep" => some sleep
  | "kill" => some kill
  | "pwd" => builtin? "pwd"
  | "awk" | "mawk" | "nawk" => some (Records.call i)
  | "sed" => some (edit i)
  | "env" => some (environment i)
  | "printenv" => some fun args => do
      let s ← get
      let values := args.filterMap fun name =>
        if s.exports.contains name then s.binding? name else none
      if args.isEmpty then
        answer (s.exports.flatMap fun name => Line.ended (name ++ '=' :: s.value name))
      else
        say (Line.join values)
        succeed (values.length == args.length)
  | "xargs" => some (withArguments i)
  | "timeout" => some (timeout i)
  | "nohup" => some (wrapped i "" false)
  | "setsid" => some (wrapped i "" true)
  | "nice" => some (wrapped i "n" false)
  | "stdbuf" => some (wrapped i "ioe" false)
  | "dd" => some copyBlocks
  | "find" => some (find i)
  | "date" => some writeDate
  | "which" => some which
  | name =>
      (((filter? name).or (fileProgram? name)).or
        ((pathProgram? name).or (listingProgram? name))).or
        (((byteProgram? name).or (comparingProgram? name)).or
          ((partingProgram? i name).or (surroundingsProgram? name)))

/-- The program that a script names on its first line, with an argument if there is
one. Without such a line it is a script for a shell. -/
def scriptProgram (script : List Char) : List Char × List (List Char) :=
  match script with
  | '#' :: '!' :: rest =>
      let line := (rest.takeWhile (· != '\n')).dropWhile isBlank
      let name := line.takeWhile (!isBlank ·)
      let argument := Text.trim (line.drop name.length)
      (name, if argument.isEmpty then [] else [argument])
  | _ => ("/bin/sh".toList, [])

/-- Become the program at a path, which was called by a name. -/
def become (i : Interpreter m) (path name : List Char) (args : List (List Char)) :
    Action m Unit := do
  modify fun s => { s with traps := s.traps.filter (·.2.isEmpty), isAlone := true }
  match ← programAt? path with
  | some "sh" | some "dash" => shell i name args
  | some program => (program? i program).elim (finish 126) fun run => run args
  | none =>
      match ← readFile? path with
      | some script =>
          let (program, fixed) := scriptProgram script
          i.program program (fixed ++ path :: args)
      | none => finish 126

/-- Start a program, and wait for its end. -/
def callProgram (i : Interpreter m) (name : List Char) (args : List (List Char)) :
    Action m Unit := do
  match ← programPath? name with
  | some path =>
      if (← get).isAlone then become i path name args
      else isolated i (become i path name args)
  | none =>
      if name.contains '/' && (← isThere name) then
        complain (String.ofList name ++ ": Permission denied")
        finish 126
      else
        complain (String.ofList name ++ ": not found")
        finish 127

end PlanOrbits.Shell.Action
