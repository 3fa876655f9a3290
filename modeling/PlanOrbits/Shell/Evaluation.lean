import PlanOrbits.Engine.Basic
import PlanOrbits.Shell.Alias
import PlanOrbits.Shell.Utility.Programs

/-!
# Running scripts

What a command does to the state of a shell. A command is run by recursion on its
form. What is run from inside of others, the scripts in words and the bodies of
functions, is at hand as an interpreter, which is one level less deep.

The shell is a stand-in for the programs of a machine: one instance of `Programs`, for engines
that are scripts. It makes the program of this library one that can be run from the arguments
to the answer without another process. Nothing that is stated about the program rests on it.
-/

namespace PlanOrbits.Shell.Action

variable {m : Type → Type} [Monad m] [Storage m]

/-- Run a computation behind which nothing follows in its process. -/
def last (p : Action m Unit) : Action m Unit := do
  modify fun s => { s with isAlone := true }
  p

/-- Run a computation behind which something follows. -/
def notLast {α : Type} (p : Action m α) : Action m α := do
  let isAlone := (← get).isAlone
  modify fun s => { s with isAlone := false }
  let a ← p
  modify fun s => { s with isAlone }
  return a

/-- Is the command that is running all that is left to do for the process? The end of a
process with commands for signals is something to do. -/
def isFinal : Action m Bool := do
  let s ← get
  return s.isAlone && s.traps.all (·.2.isEmpty)

/-- The output of a script inside of a word. -/
def substitute (i : Interpreter m) : Substitute m := fun script =>
  captured i (last (i.script script))

/-! ## Redirects -/

/-- The number of the stream that a path names. -/
def streamOfPath? (path : List Char) : Option Nat :=
  match String.ofList path with
  | "/dev/stdin" | "/dev/fd/0" => some 0
  | "/dev/stdout" | "/dev/fd/1" => some 1
  | "/dev/stderr" | "/dev/fd/2" => some 2
  | _ => none

/-- The channel that writes into a file, once the file is there, or what is wrong. -/
def openOutput (path : List Char) (writing : Writing) : Action m (Except String Channel) := do
  let fault := fun (reason : String) =>
    Except.error ("cannot create " ++ String.ofList path ++ ": " ++ reason)
  if path == "/dev/full".toList then return .ok .full
  if ["/dev/null", "/dev/zero", "/dev/tty"].any (·.toList == path) then return .ok .nowhere
  let s ← get
  match streamOfPath? path, ← pathOf? path with
  | some stream, _ => return (s.channel? stream).elim (fault "Permission denied") .ok
  | none, none => return fault "Directory nonexistent"
  | none, some name =>
      let old ← (Storage.read? name : m (Option (List UInt8)))
      if s.isOn .keepFiles && writing == .replace && old.isSome then return fault "File exists"
      let isOpen ← (Storage.write name (if writing == .append then old.getD [] else []) : m Bool)
      if isOpen then noteWriting path old.isNone
      return if isOpen then .ok (.file name) else fault "Directory nonexistent"

/-- Change a stream. Tells what is wrong if it is not possible. -/
def redirect (i : Interpreter m) : Redirect → Action m (Option String)
  | .hereText stream body => do
      let text ← wordText (substitute i) body
      modify (·.openText stream .drain text)
      return none
  | .readFrom stream path => do
      let path ← wordText (substitute i) path
      match streamOfPath? path with
      | some 0 => return none
      | _ =>
          match ← readFile? path with
          | none => return some ("cannot open " ++ String.ofList path ++ ": No such file")
          | some text =>
              modify (·.openText stream .file text)
              return none
  | .writeTo stream writing path => do
      let path ← wordText (substitute i) path
      match ← openOutput path writing with
      | .error fault => return some fault
      | .ok channel =>
          modify (·.setChannel stream (some channel))
          return none
  | .copy stream other => do
      match ← wordText (substitute i) other with
      | ['-'] =>
          modify (·.setChannel stream none)
          return none
      | number =>
          match Text.digits? number with
          | none => return some (String.ofList number ++ ": Bad file descriptor")
          | some ds =>
              match (← get).channel? (Text.number ds) with
              | none => return some (String.ofList number ++ ": Bad file descriptor")
              | some channel =>
                  modify (·.setChannel stream (some channel))
                  return none

/-- Change streams one after the other, as long as it is possible. -/
def redirectAll (i : Interpreter m) : List Redirect → Action m (Option String)
  | [] => return none
  | r :: rs => do
      match ← redirect i r with
      | none => redirectAll i rs
      | fault => return fault

/-- The stream that a redirect changes. -/
def streamOf : Redirect → Nat
  | .hereText stream _ | .readFrom stream _ | .writeTo stream _ _ | .copy stream _ => stream

/-- Run a computation with changed streams, which are put back behind it. A fault in a
redirect ends the shell if `isSpecial` holds. -/
def withRedirects (i : Interpreter m) (isSpecial : Bool) (rs : List Redirect)
    (p : Action m Unit) : Action m Unit := do
  let before ← get
  set { before with kept := before.kept ++ before.channels.map Prod.snd }
  let escape? ←
    match ← redirectAll i rs with
    | none => attempt p
    | some message => do
        complain message
        finish 2
        pure (if isSpecial then some .exit else none)
  let restore := fun (s : Machine) stream => s.setChannel stream (before.channel? stream)
  modify fun s => { (rs.map streamOf).foldl restore s with kept := before.kept }
  if let some e := escape? then throw e

/-! ## Simple commands -/

/-- Run a function with arguments. -/
def callFunction (i : Interpreter m) (body : Command) (args : List (List Char)) :
    Action m Unit := do
  let before ← get
  set { before with
    parameters := before.parameters.take 1 ++ args, locals := [], localSwitches := none, loops := 0
    calls := before.calls + 1 }
  let escape? ← attempt (i.body body)
  modify fun s =>
    { s.locals.foldl (fun (s : Machine) (name, value?) => s.setBinding name value?) s with
      parameters := before.parameters, locals := before.locals, loops := before.loops
      switches := s.localSwitches.getD s.switches, localSwitches := before.localSwitches
      tests := before.tests, calls := before.calls }
  match escape? with
  | none | some .back => return
  | some e => throw e

/-- Run the script in a file. -/
def runFile (i : Interpreter m) (args : List (List Char)) : Action m Unit := do
  match args with
  | [] => finish 2
  | path :: _ =>
      match ← readFile? path with
      | none =>
          let name := String.ofList path
          fail (if path.contains '/' then ".: cannot open " ++ name ++ ": No such file"
            else ".: " ++ name ++ ": not found")
      | some script =>
          match ← attempt (i.script script) with
          | none | some .back => return
          | some e => throw e

/-- What a name means as a command. -/
inductive Meaning where
  | keyword
  | function
  | special
  | builtin
  | program (path : List Char)
  | substitute (value : List Char)
  | none
  deriving DecidableEq, Repr

/-- The meaning of a name. -/
def meaning (name : List Char) : Action m Meaning := do
  let text := String.ofList name
  if Script.reserved.contains text then return .keyword
  else if let some value := (← get).aliases.lookup name then return .substitute value
  else if (special? (m := m) text).isSome || ["eval", ".", "exec"].contains text then
    return .special
  else if ((← get).functions.lookup name).isSome then return .function
  else if (builtin? (m := m) text).isSome || ["command", "type", "hash"].contains text then
    return .builtin
  else return (← programPath? name).elim .none .program

/-- Tell what names mean: the word with which they are called, or a sentence. -/
def describe (isBrief : Bool) (names : List (List Char)) : Action m Unit := do
  let statuses ← names.mapM fun name => do
    let text := String.ofList name
    let isKnown := ((← get).located.lookup name).isSome
    let known := fun (brief : List Char) (sentence : String) => do
      say (Line.ended (if isBrief then brief else Bytes.charsOfText (text ++ sentence)))
      return true
    match ← meaning name with
    | .keyword => known name " is a shell keyword"
    | .function => known name " is a shell function"
    | .special => known name " is a special shell builtin"
    | .builtin => known name " is a shell builtin"
    | .program path =>
        known path ((if isKnown then " is a tracked alias for " else " is ") ++ String.ofList path)
    | .substitute value =>
        known ("alias ".toList ++ (aliasText name value).dropLast)
          (" is an alias for " ++ String.ofList value)
    | .none =>
        if !isBrief then say (Bytes.charsOfText (text ++ ": not found\n"))
        return false
  finish (if statuses.all (·) then 0 else 127)

/-- Look where programs lie, and remember it, or tell what is remembered. -/
def locate (names : List (List Char)) : Action m Unit := do
  if names.isEmpty then answer (Line.join ((← get).located.map Prod.snd))
  else
    if names.contains ['-', 'r'] then modify fun s => { s with located := [] }
    let results ← (names.filter (·.head? != some '-')).mapM fun name => do
      match ← meaning name with
      | .none => do
          complain ("hash: " ++ String.ofList name ++ ": not found")
          return false
      | _ => return true
    succeed (results.all (·))

/-- Run a name with arguments as something else than a function. -/
def callDirectly (i : Interpreter m) (name : List Char) (args : List (List Char)) :
    Action m Unit :=
  let text := String.ofList name
  match (special? text).or (builtin? text) with
  | some builtin => builtin args
  | none => do
      let isAlone ← isFinal
      modify fun s => { s with isAlone }
      callProgram i name args

/-- Run a name with arguments, but no function, or tell what names mean. -/
def command (i : Interpreter m) (args : List (List Char)) : Action m Unit := do
  match args with
  | [] => finish 0
  | ['-', 'v'] :: names => describe true (names.take 1)
  | ['-', 'V'] :: names => describe false (names.take 1)
  | ['-', 'p'] :: name :: args | ['-', '-'] :: name :: args | name :: args =>
      match String.ofList name with
      | "eval" => notLast (i.script (List.intercalate [' '] args))
      | "." => notLast (runFile i args)
      | "type" => describe false args
      | "hash" => locate args
      | _ => callDirectly i name args

/-- Run a name with arguments. -/
def call (i : Interpreter m) (name : List Char) (args : List (List Char)) : Action m Unit := do
  match String.ofList name with
  | "eval" =>
      if args.isEmpty then finish 0 else notLast (i.script (List.intercalate [' '] args))
  | "." => notLast (runFile i args)
  | "exec" =>
      match args with
      | [] => finish 0
      | name :: args =>
          if name.contains '/' || (← programPath? name).isSome then
            modify fun s => { s with isAlone := true }
            ended i (callProgram i name args)
          else
            complain ("exec: " ++ String.ofList name ++ ": not found")
            finish 127
          throw .gone
  | text =>
      match special? text with
      | some special => special args
      | none =>
          match (← get).functions.lookup name with
          | some body => notLast (callFunction i body args)
          | none =>
              match text with
              | "command" => command i args
              | "type" => describe false args
              | "hash" => locate args
              | _ => callDirectly i name args

/-- Assign the values of words to variables. Tells the assignments. -/
def assignWords (i : Interpreter m) : List (List Char × Word) → Action m (List (List Char))
  | [] => return []
  | (name, w) :: rest => do
      let value ← wordValue (substitute i) w
      assign name value
      return (name ++ '=' :: value) :: (← assignWords i rest)

/-- Write a command that is about to run into a channel, if commands are traced. What
is put in front of it is not traced itself. -/
def showCommand (i : Interpreter m) (channel : Option Channel) (fields : List (List Char)) :
    Action m Unit := do
  let s ← get
  if s.isOn .trace then
    set { s with switches := Switch.set false .trace s.switches }
    let front ← wordText (substitute i)
      ((quotedWord? .hereText ((s.value? "PS4".toList).getD [])).getD [])
    modify fun t =>
      { t with switches := s.switches, status := s.status, innerStatus := s.innerStatus }
    let _ ← putInto channel (front ++ Line.ended (List.intercalate [' '] fields))

/-- The commands that take assignments as arguments. -/
def declarations : List String := ["export", "readonly", "local"]

/-- The fields of the words of a command. The value of an assignment is not cut where
the command takes assignments. -/
def commandFields (i : Interpreter m) (words : List Word) : Action m (List (List Char)) := do
  let isDeclaration := (words.head?.bind Word.bare?).any fun cs =>
    declarations.contains (String.ofList cs)
  let fields ← words.mapM fun w => do
    match if isDeclaration then Script.assignment? w else none with
    | some (name, value) => return [name ++ '=' :: (← wordValue (substitute i) value)]
    | none => wordFields (substitute i) w
  return fields.flatten

/-- Run the fields of a simple command. Assignments in front of them are seen by the
command, and last only if it is special. The command is traced in a channel. -/
def perform (i : Interpreter m) (isSpecial : Bool) (messages : Option Channel)
    (assignments : List (List Char × Word)) (fields : List (List Char)) : Action m Unit := do
  let before ← get
  match fields with
  | [] =>
      set { before with innerStatus := 0 }
      showCommand i messages (← assignWords i assignments)
      finish (← get).innerStatus
  | name :: args =>
      modify fun s => { s with isAlone := false }
      showCommand i messages ((← assignWords i assignments) ++ fields)
      let names := assignments.map Prod.fst
      modify fun s => { s with exports := names.filter (!s.exports.contains ·) ++ s.exports }
      modify fun s => { s with isAlone := before.isAlone }
      let escape? ← attempt (call i name args)
      if !isSpecial then
        modify fun s =>
          { names.foldl (fun (s : Machine) name => s.setBinding name (before.binding? name)) s with
            exports := s.exports.filter fun name =>
              !names.contains name || before.exports.contains name }
      if let some e := escape? then throw e

/-- Run a simple command with redirects. A command that changes the streams of the
shell itself, and only that, changes them for good. -/
def simple (i : Interpreter m) (assignments : List (List Char × Word)) (words : List Word)
    (rs : List Redirect) : Action m Unit := do
  let isAlone := (← get).isAlone
  modify fun s => { s with innerStatus := 0, isAlone := false }
  let fields ← commandFields i words
  let messages := (← get).channel? 2
  let perform := fun isSpecial => do
    modify fun s => { s with isAlone }
    perform i isSpecial messages assignments fields
  let inner := (← get).innerStatus
  let name := fields.headD []
  let text := String.ofList name
  let isSpecial := (special? (m := m) text).isSome || ["eval", ".", "exec"].contains text
  if text == "exec" then
    match ← redirectAll i rs with
    | some message => fail message
    | none => perform true
  else if fields.isEmpty && assignments.isEmpty then
    withRedirects i false rs (finish inner)
  else if rs.isEmpty then perform isSpecial
  else withRedirects i isSpecial rs (perform isSpecial)

/-! ## Commands -/

/-- Does one of the patterns match the text by which a branch is chosen? -/
def matchesAny (i : Interpreter m) : List Word → Action m Bool
  | [] => return false
  | w :: ws => do
      let p ← wordPattern (substitute i) w
      if p.matchesAll (← get).subject then return true else matchesAny i ws

/-- Deal with the signals that have come: run their commands. -/
def heed (i : Interpreter m) : Action m Unit := do
  let s ← get
  match s.system.signalsOf s.process with
  | [] => return
  | signals =>
      set { s with system := s.system.update s.process fun p => { p with signals := [] } }
      signals.forM fun signal => do
        if let some action := (← get).traps.lookup signal.name then
          notLast (i.script action)
          finish s.status

/-- What follows each command that is not made of others: signals arrive, and a
failure may end the shell. -/
def settle (i : Interpreter m) : Action m Unit := do
  heed i
  let s ← get
  if s.isOn .exitOnFailure && s.tests = 0 && s.status != 0 then quit

/-- Run a computation whose failure is an answer. -/
def tested (p : Action m Unit) : Action m Bool := do
  modify fun s => { s with tests := s.tests + 1 }
  notLast p
  modify fun s => { s with tests := s.tests - 1 }
  isGood

/-- Run one round of a loop. Does the loop go on? A round that is left early has
succeeded. -/
def round (p : Action m Bool) : Action m Bool := do
  let tests := (← get).tests
  tryCatch p fun e => do
    modify fun s => { s with tests, roundStatus := 0 }
    match e with
    | .leave 0 | .leave 1 => do
        finish 0
        return false
    | .again 0 | .again 1 => do
        finish 0
        return true
    | .leave n => throw (.leave (n - 1))
    | .again n => throw (.again (n - 1))
    | e => throw e

/-- Run a loop inside of which commands can leave it. -/
def looped (p : Action m Unit) : Action m Unit := do
  modify fun s => { s with loops := s.loops + 1 }
  let escape? ← attempt p
  modify fun s => { s with loops := s.loops - 1 }
  if let some e := escape? then throw e

/-- Run a body for each of some values. -/
def forEach (name : List Char) (body : Action m Unit) : List (List Char) → Action m Unit :=
  Procedure.forWhile fun value => do
    assign name value
    round do
      body
      return true

/-- Run a command. -/
def run (i : Interpreter m) : Command → Action m Unit
  | .nothing => finish 0
  | .simple assignments words => do
      if (← get).isOn .noExecution then return
      simple i assignments words []
      settle i
  | .redirected c rs =>
      match c with
      | .simple assignments words => do
          if (← get).isOn .noExecution then return
          simple i assignments words rs
          settle i
      | c => notLast (withRedirects i false rs (run i c))
  | .subshell c => do
      if ← isFinal then run i c
      else
        isolated i (last (run i c))
        settle i
  | .background c => detached i (last (run i c))
  | .pipe first second => do
      if second.isPipe then piped i true (last (run i first)) (run i second)
      else piped i false (last (run i first)) (last (run i second))
      settle i
  | .negation c => do
      let isGood ← tested (run i c)
      succeed !isGood
  | .sequence first second => do
      notLast (run i first)
      run i second
  | .andThen first second => do if ← tested (run i first) then run i second
  | .orElse first second => do if !(← tested (run i first)) then run i second
  | .conditional test yes no => do
      if ← tested (run i test) then run i yes else run i no
  | .choice subject branches => do
      let text ← wordText (substitute i) subject
      modify fun s => { s with subject := text }
      run i branches
  | .branch patterns body others => do
      if ← matchesAny i patterns then run i body else run i others
  | .loop isUntil test body => do
      let last ← get
      -- The status of a loop is that of its last round.
      set { last with roundStatus := 0 }
      notLast <| looped do
        let round := round do
          let isGood ← tested (run i test)
          if isGood == isUntil then return false
          run i body
          modify fun s => { s with roundStatus := s.status }
          return true
        repeated round
      finish (← get).roundStatus
  | .each name words body => do
      let values ←
        match words with
        | some words => wordsFields (substitute i) words
        | none => pure (← get).parameters.tail
      finish 0
      notLast (looped (forEach name (run i body) values))
  | .define name body => do
      modify fun s => { s with functions := (name, body) :: s.functions.filter (·.1 != name) }
      finish 0

/-- Run the lines of a script, which are given by their tokens. `isAlone` tells whether
nothing follows behind the last of them. -/
def runLines (i : Interpreter m) (isAlone : Bool) : Nat → List Token → Action m Unit
  | 0, _ => return
  | fuel + 1, ts => do
      match Alias.nextLine? (← get).aliases ts with
      | none => return
      | some none => fail "Syntax error"
      | some (some (c, rest)) => do
          modify fun s => { s with isAlone := isAlone && (Script.skipLines rest).isEmpty }
          if !(← get).isOn .noExecution then run i c
          runLines i isAlone fuel rest

/-- Run a script. -/
def interpret (i : Interpreter m) (script : List Char) : Action m Unit := do
  let s := Script.ofChars script
  runLines i ((← get).isAlone && !s.isBroken) (s.tokens.length + 1) s.tokens
  if s.isBroken then fail "Syntax error"

/-- An interpreter inside of which scripts and functions nest at most so deep. -/
def interpreter : (depth : Nat) → Interpreter m
  | 0 =>
      { script := fun _ => throw .gone, body := fun _ => throw .gone
        program := fun _ _ => throw .gone }
  | depth + 1 =>
      let i := interpreter depth
      { script := interpret i, body := run i, program := callProgram i }

end PlanOrbits.Shell.Action

namespace PlanOrbits.Shell

/-- How deep scripts and functions may nest. -/
def depthLimit : Nat := 1000

variable {m : Type → Type} [Monad m] [Storage m]

/-- Run a program with arguments from the beginning to the end. It may run for so many
milliseconds. -/
def Action.outcome (name : List Char) (args : List (List Char)) (start : Machine) :
    m ProgramOutcome := do
  let i := Action.interpreter depthLimit
  let routine := fun (system : System) => do
    let p := Action.last do
      Action.leaveIfEnded
      Action.callProgram i name args
    return (← Procedure.run (Action.ended i p) { start with system }).state.leave
  let thread : Routine.Thread m := { events := [.now], next := routine, system := id }
  let system ← Routine.run Action.patience start.system [thread]
  return { output := system.textOf 1, isLate := system.isLate, isFed := system.isFed }

/-- Start a program with arguments and an input, and wait for its end; it is ended after so
many milliseconds. There is no outcome if there is no such program; an argument with a null
character cannot be handed over. -/
def start? (program : String) (args : List String) (input : List UInt8) (limit : Option Nat) :
    m (Option ProgramOutcome) := do
  if (program :: args).any (·.toList.contains '\x00') then return none
  let name := Bytes.charsOfText program
  let directory ← (Storage.workingDirectory : m String)
  let start := Machine.start [name] (Bytes.charsOfText directory)
    (System.start limit (Bytes.chars input))
  match ← (Procedure.run (Action.programPath? name) start).result? with
  | some (.ok (some _) _) =>
      return some (← Action.outcome name (args.map Bytes.charsOfText) start)
  | _ => return none

/-- Programs are scripts, and the utilities that a shell has. -/
instance : Programs m where
  start? := start?

end PlanOrbits.Shell
