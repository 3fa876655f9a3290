import PlanOrbits.Shell.Condition
import PlanOrbits.Shell.Counting
import PlanOrbits.Shell.Expansion
import PlanOrbits.Shell.Subshell
import PlanOrbits.Shell.Utility.Input

/-!
# Commands of the shell itself

The commands that change the state of the shell, or end a part of it: variables and
options, loops and functions, signals and jobs, and reading a line.

Some of them are special: an assignment in front of them lasts, and a fault in them
ends the shell.
-/

namespace PlanOrbits.Shell.Action

variable {m : Type → Type} [Monad m] [Storage m]

/-- A number as an argument of a special command. -/
def numberOr (default : Nat) (name : String) (args : List (List Char))
    (use : Nat → Action m Unit) : Action m Unit := do
  match args with
  | [] => use default
  | arg :: _ =>
      match Text.digits? arg with
      | some ds => use (Text.number ds)
      | none => fail (name ++ ": Illegal number: " ++ String.ofList arg)

/-! ## Leaving -/

/-- End the shell with a status. -/
def exit (args : List (List Char)) : Action m Unit := do
  numberOr (← get).status "exit" args fun status => do
    finish (status % 256)
    quit

/-- End the function. -/
def back (args : List (List Char)) : Action m Unit := do
  numberOr (← get).status "return" args fun status => do
    finish status
    throw .back

/-- End loops, or the rounds of them that are running. -/
def leave (name : String) (escape : Nat → Escape) (args : List (List Char)) : Action m Unit :=
  numberOr 1 name args fun n => do
    let loops := (← get).loops
    if n = 0 then fail (name ++ ": Illegal number: 0")
    else
      finish 0
      if loops != 0 then throw (escape (min n loops))

/-! ## Variables -/

/-- The name and the value of an assignment. -/
def readAssignment? (arg : List Char) : Option (List Char × List Char) :=
  let name := arg.takeWhile isNameChar
  match arg.drop name.length with
  | '=' :: value => if name.head?.any isNameStart then some (name, value) else none
  | _ => none

/-- A value between quotes. -/
def quoted (value : List Char) : List Char :=
  '\'' :: (value.flatMap fun c => if c == '\'' then "'\"'\"'".toList else [c]) ++ ['\'']

/-- Give variables the values that stand behind their names; returns the names. The
command that does so is named. -/
def assignAll (command : String) : List (List Char) → Action m (List (List Char))
  | [] => return []
  | arg :: args => do
      match readAssignment? arg with
      | some (name, value) =>
          assignFor command name value
          return name :: (← assignAll command args)
      | none => return arg :: (← assignAll command args)

/-- The variables with the given names, as the command `word` would declare them. -/
def declarationText (word : String) (s : Machine) (names : List (List Char)) : List Char :=
  (Line.sorted names).flatMap fun name =>
    let value := (s.binding? name).elim [] fun value => '=' :: quoted value
    word.toList ++ ' ' :: name ++ value ++ ['\n']

/-- Let programs see variables; without an argument, list them. -/
def publish (args : List (List Char)) : Action m Unit := do
  let names ← assignAll "export: " (args.filter (· != ['-', 'p']))
  let s ← get
  if names.isEmpty then say (declarationText "export" s s.exports)
  set { s with exports := names ++ s.exports.filter (!names.contains ·), status := 0 }

/-- Let variables keep their values; without an argument, list them. -/
def freeze (args : List (List Char)) : Action m Unit := do
  let names ← assignAll "readonly: " (args.filter (· != ['-', 'p']))
  let s ← get
  if names.isEmpty then say (declarationText "readonly" s s.constants)
  set { s with constants := names ++ s.constants.filter (!names.contains ·), status := 0 }

/-- Declare variables whose values are put back at the end of the function. -/
def declareLocal (args : List (List Char)) : Action m Unit := do
  if (← get).calls = 0 then fail "local: not in a function"
  if args.contains ['-'] then modify fun s => { s with localSwitches := some s.switches }
  let args := args.filter (· != ['-'])
  modify fun s => args.foldl (fun s arg =>
    let name := ((readAssignment? arg).map Prod.fst).getD arg
    if (s.locals.lookup name).isSome then s
    else { s with locals := (name, s.binding? name) :: s.locals }) s
  let _ ← assignAll "local: " args
  finish 0

/-- Take away variables or functions. -/
def unset (args : List (List Char)) : Action m Unit := do
  match args with
  | ['-', 'f'] :: names =>
      modify fun s => { s with functions := s.functions.filter (!names.contains ·.1) }
  | ['-', 'v'] :: names | names =>
      match names.find? (← get).constants.contains with
      | some name => fail ("unset: " ++ String.ofList name ++ ": is read only")
      | none => modify fun s => names.foldl Machine.unassign s
  finish 0

/-- The state with an option on or off. -/
def setSwitch (isOn : Bool) (switch : Switch) (s : Machine) : Machine :=
  { s with switches := switch.set isOn s.switches }

/-- The state with the options of some letters on or off, or the letter of no option. -/
def setLetters (isOn : Bool) (letters : List Char) (s : Machine) : Except String Machine :=
  letters.foldlM (fun s c =>
    match Switch.ofLetter? c with
    | some switch => .ok (setSwitch isOn switch s)
    | none => .error (String.singleton c)) s

/-- The state with the option of a name on or off. -/
def setNamed (isOn : Bool) (name : List Char) (s : Machine) : Except String Machine :=
  match Switch.ofName? (String.ofList name) with
  | some switch => .ok (setSwitch isOn switch s)
  | none => .error ("o " ++ String.ofList name)

/-- Read options, and then the parameters that are set, if there are any; or tell what
is no option. -/
def readOptions (s : Machine) :
    List (List Char) → Except String (Machine × Option (List (List Char)))
  | [] => .ok (s, none)
  | ['-', '-'] :: args => .ok (s, some args)
  | ['-', 'o'] :: name :: args => do readOptions (← setNamed true name s) args
  | ['+', 'o'] :: name :: args => do readOptions (← setNamed false name s) args
  | ('-' :: c :: cs) :: args => do readOptions (← setLetters true (c :: cs) s) args
  | ('+' :: c :: cs) :: args => do readOptions (← setLetters false (c :: cs) s) args
  | args => .ok (s, some args)

/-- Set options and parameters; without an argument, list the variables or the
options. -/
def setAll (args : List (List Char)) : Action m Unit := do
  let s ← get
  if args == [['-', 'o']] then answer (Switch.table s.switches)
  else if args == [['+', 'o']] then answer (Switch.commands s.switches)
  else if args.isEmpty then
    answer ((Line.sorted (s.bindings.map Prod.fst)).flatMap fun name =>
      name ++ '=' :: quoted (s.value name) ++ ['\n'])
  else
    match readOptions s args with
    | .error option => fail ("set: Illegal option -" ++ option)
    | .ok (s, parameters) =>
        set { s with
          parameters := parameters.elim s.parameters (s.parameters.take 1 ++ ·), status := 0 }

/-- Drop the first parameters. -/
def shift (args : List (List Char)) : Action m Unit := do
  numberOr 1 "shift" args fun n => do
    let s ← get
    if s.parameters.length - 1 < n then fail "shift: can't shift that many"
    else
      set { s with
        parameters := s.parameters.take 1 ++ s.parameters.drop (n + 1), status := 0 }

/-! ## Reading -/

/-- A line in which backslashes protect characters, and continue the line at its
end. A protected character is marked. -/
def takeProtectedLine : Nat → Action m (List (Char × Bool) × Bool)
  | 0 => return ([], false)
  | fuel + 1 => do
      let (line, isEnded) ← takeLine
      let (marked, isContinued) := mark line
      if isContinued && isEnded then
        let (more, isEnded) ← takeProtectedLine fuel
        return (marked ++ more, isEnded)
      else return (marked, isEnded)
where
  /-- Resolve the backslashes of a line; tells whether one stands at its end. -/
  mark : List Char → List (Char × Bool) × Bool
    | [] => ([], false)
    | ['\\'] => ([], true)
    | '\\' :: c :: cs =>
        let (rest, isContinued) := mark cs
        ((c, true) :: rest, isContinued)
    | c :: cs =>
        let (rest, isContinued) := mark cs
        ((c, false) :: rest, isContinued)

/-- The fields of a line for so many variables; the last takes all that is left. -/
def lineFields (separators : List Char) : Nat → List (Char × Bool) → List (List Char)
  | 0, _ => []
  | n + 1, line =>
      let isSeparator := fun (x : Char × Bool) => !x.2 && separators.contains x.1
      let isBlankSeparator := fun (x : Char × Bool) =>
        isSeparator x && (isBlank x.1 || x.1 == '\n')
      let line := line.dropWhile isBlankSeparator
      let field := line.takeWhile (!isSeparator ·)
      let rest := (line.drop field.length).dropWhile isBlankSeparator
      let rest :=
        match rest with
        | x :: xs =>
            if isSeparator x && !isBlankSeparator x then xs.dropWhile isBlankSeparator else rest
        | [] => []
      -- A single separator behind the last field belongs to no field.
      if n = 0 then
        if rest.isEmpty then [field.map Prod.fst]
        else [((line.reverse.dropWhile isBlankSeparator).reverse).map Prod.fst]
      else field.map Prod.fst :: lineFields separators n rest

/-- Read a line into variables. -/
def readLine (args : List (List Char)) : Action m Unit := do
  let table : FlagTable := { plain := "r", valued := "p", long := [], isMixed := false }
  match Flags.ofArgs? table args with
  | none => finish 2
  | some f =>
      if f.operands.isEmpty then
        complain "read: arg count"
        finish 2
      else
        let (line, isEnded) ←
          if f.has 'r' then do
            let (line, isEnded) ← takeLine
            pure (line.map fun c => (c, false), isEnded)
          else takeProtectedLine patience
        let line := line.filter (·.1 != '\x00')
        let fields := lineFields (← get).separators f.operands.length line
        (f.operands.zip fields).forM fun (name, value) => assignFor "read: " name value
        succeed isEnded

/-- Take the next option from arguments. The place is kept in a variable, together
with the place inside of joined options. -/
def nextOption (args : List (List Char)) : Action m Unit := do
  match args with
  | spec :: name :: more =>
      let s ← get
      let args := if more.isEmpty then s.parameters.tail else more
      let place := ((Text.digits? (s.value "OPTIND".toList)).elim 1 Text.number)
      let inside := (Text.digits? (s.value "OPTPOS".toList)).elim 1 Text.number
      let arg := args.getD (place - 1) []
      let stop := fun (place : Nat) => do
        modify fun s => ((s.assign name ['?']).assign "OPTIND".toList (Text.decimal place)).assign
          "OPTPOS".toList ['1']
        finish 1
      if arg.head? != some '-' || arg.length < 2 then stop place
      else if arg == ['-', '-'] then stop (place + 1)
      else
        let c := arg.getD inside '?'
        let isLast := arg.length ≤ inside + 1
        let isKnown := spec.contains c && c != ':'
        let takesValue := isKnown && (spec.dropWhile (· != c)).getD 1 ' ' == ':'
        let isSilent := spec.head? == some ':'
        let (value, next, inner) :=
          if takesValue then
            if isLast then (args[place]?, min (place + 2) (args.length + 1), 1)
            else (some (arg.drop (inside + 1)), place + 1, 1)
          else (none, if isLast then place + 1 else place, if isLast then 1 else inside + 1)
        let isMissing := takesValue && value.isNone
        if !isSilent && !isKnown then
          let _ ← put 2 ("Illegal option -".toList ++ [c, '\n'])
        if !isSilent && isMissing then
          let _ ← put 2 ("No arg for -".toList ++ c :: " option\n".toList)
        let letter :=
          if !isKnown then '?' else if !isMissing then c else if isSilent then ':' else '?'
        modify fun s =>
          let s := (s.assign name [letter]).assign "OPTIND".toList (Text.decimal next)
          let s := s.assign "OPTPOS".toList (Text.decimal inner)
          match value with
          | some value => s.assign "OPTARG".toList value
          | none =>
              if letter != c && isSilent then s.assign "OPTARG".toList [c]
              else s.unassign "OPTARG".toList
        finish 0
  | _ => finish 2

/-! ## Directories -/

/-- The path of the present directory that goes through no link. -/
def plainDirectory : Action m (List Char) := do
  return (← filePlace? ['.']).elim [] fun place => Bytes.charsOfText place.toPath

/-- Is the last of the flags in front the one for paths through no link? -/
def asksForPlain (args : List (List Char)) : Bool :=
  let flags := args.takeWhile fun arg => arg.head? == some '-' && 2 ≤ arg.length
  (flags.flatMap List.tail).getLast? == some 'P'

/-- Write the directory in which paths begin. -/
def writeDirectory (args : List (List Char)) : Action m Unit := do
  let present := (← get).directory
  let directory ← if asksForPlain args then plainDirectory else pure present
  answer (Line.ended directory)

/-- A path without names that mean nothing, and without those that two dots take
back. -/
def plainPath (path : List Char) : List Char :=
  let isAbsolute := path.head? == some '/'
  let names := (Text.pieces (· == '/') path).foldl (fun (names : List (List Char)) name =>
    if name.isEmpty || name == ['.'] then names
    else if name == ['.', '.'] then
      match names with
      | last :: rest => if last == ['.', '.'] then name :: names else rest
      | [] => if isAbsolute then [] else [name]
    else name :: names) []
  (if isAbsolute then ['/'] else []) ++ List.intercalate ['/'] names.reverse

/-- Go to a directory, and remember the one before. -/
def enterDirectory (isPlain : Bool) (path : List Char) : Action m Unit := do
  let s ← get
  if path.isEmpty || (← isDirectory path) then
    let directory :=
      plainPath (if path.head? == some '/' then path else s.directory ++ '/' :: path)
    set { s with directory }
    let directory ← if isPlain then plainDirectory else pure directory
    let assigned := (s.assign "OLDPWD".toList s.directory).assign "PWD".toList directory
    set { assigned with directory, status := 0 }
  else
    complain ("cd: can't cd to " ++ String.ofList path)
    finish 2

/-- The first of the directories in which a relative path is looked for and leads to a
directory. -/
def searchDirectory? (path : List Char) : Action m (Option (List Char)) := do
  let isFixed := path.head? == some '/' || path.head? == some '.'
  match (← get).binding? "CDPATH".toList with
  | none | some [] => return none
  | some list =>
      if isFixed then return none
      let around := (Text.pieces (· == ':') list).filter (!·.isEmpty)
      return ← (around.map fun directory => directory ++ '/' :: path).findM? isDirectory

/-- Go to a directory: to the one before for a dash, and home without an argument. -/
def changeDirectory (args : List (List Char)) : Action m Unit := do
  let s ← get
  let isPlain := asksForPlain args
  match args.filter fun arg => arg != ['-', 'P'] && arg != ['-', 'L'] && arg != ['-', '-'] with
  | [] => enterDirectory isPlain (s.value "HOME".toList)
  | ['-'] :: _ =>
      enterDirectory isPlain (s.value "OLDPWD".toList)
      if ← isGood then writeDirectory []
  | path :: _ =>
      match ← searchDirectory? path with
      | some found =>
          enterDirectory isPlain found
          if ← isGood then writeDirectory []
      | none => enterDirectory isPlain path

/-! ## Rights and limits -/

/-- The digits of a number to the base eight. -/
def octal (n : Nat) : List Char := Nat.toDigits 8 n

/-- The rights that a mask leaves for one class of users, as letters. -/
def rightLetters (mask : Nat) : List Char :=
  [(4, 'r'), (2, 'w'), (1, 'x')].filterMap fun (bit, c) =>
    if mask / bit % 2 = 0 then some c else none

/-- The mask with the rights that an assignment such as `g=rx` names. -/
def assignRights? (mask : Nat) (clause : List Char) : Option Nat := do
  let users := clause.takeWhile fun c => ['u', 'g', 'o', 'a'].contains c
  let operator ← (clause.drop users.length).head?
  let letters := clause.drop (users.length + 1)
  if letters.any fun c => !(['r', 'w', 'x', 'X', 's', 't'].contains c) then none
  let named := [('r', 4), ('w', 2), ('x', 1)].foldl (fun n (c, bit) =>
    if letters.contains c then n + bit else n) 0
  let change := fun (old : Nat) =>
    match operator with
    | '=' => some (7 - named)
    | '+' => some ((old &&& (7 - named)) : Nat)
    | '-' => some ((old ||| named) : Nat)
    | _ => none
  [('u', 64), ('g', 8), ('o', 1)].foldlM (fun mask (c, unit) =>
    if users.isEmpty || users.contains c || users.contains 'a' then do
      let old := mask / unit % 8
      return mask - old * unit + (← change old) * unit
    else some mask) mask

/-- Show or set the rights that new files do not get. -/
def setMask (args : List (List Char)) : Action m Unit := do
  let s ← get
  match args with
  | [] =>
      let digits := octal s.mask
      answer (Line.ended (List.replicate (4 - digits.length) '0' ++ digits))
  | ['-', 'S'] :: _ =>
      let part := fun (c : Char) (unit : Nat) => c :: '=' :: rightLetters (s.mask / unit % 8)
      answer (Line.ended (List.intercalate [','] [part 'u' 64, part 'g' 8, part 'o' 1]))
  | arg :: _ =>
      let mask? :=
        if arg.head?.any Text.isDigit then
          if arg.all fun c => '0' ≤ c && c ≤ '7' then
            some (arg.foldl (fun n c => 8 * n + (c.toNat - '0'.toNat)) 0 % 512)
          else none
        else (Text.pieces (· == ',') arg).foldlM assignRights? s.mask
      match mask? with
      | some mask => set { s with mask, status := 0 }
      | none =>
          complain ("umask: Illegal mode: " ++ String.ofList arg)
          finish 2

/-! ## Other names for commands -/

/-- An alias as the command that would define it. -/
def aliasText (name value : List Char) : List Char := name ++ '=' :: quoted value ++ ['\n']

/-- Define aliases, or list them. -/
def setAliases (args : List (List Char)) : Action m Unit := do
  if args.isEmpty then
    answer ((← get).aliases.flatMap fun (name, value) => aliasText name value)
  else
    let results ← args.mapM fun arg => do
      match Text.cutAt? '=' arg with
      | some (c :: cs, value) => do
          modify fun s =>
            { s with aliases := (c :: cs, value) :: s.aliases.filter (·.1 != c :: cs) }
          return true
      | _ =>
          match (← get).aliases.lookup arg with
          | some value => tell (aliasText arg value)
          | none => return false
    succeed (results.all (·))

/-- Take away aliases. -/
def unsetAliases (args : List (List Char)) : Action m Unit := do
  let s ← get
  if args == [['-', 'a']] then set { s with aliases := [], status := 0 }
  else
    set { s with aliases := s.aliases.filter (!args.contains ·.1) }
    succeed (args.all fun name => (s.aliases.lookup name).isSome)

/-! ## Signals and jobs -/

/-- Set what is done on signals, and at the end. -/
def trap (args : List (List Char)) : Action m Unit := do
  let s ← get
  match if args.head? == some ['-', '-'] then args.tail else args with
  | [] =>
      answer (Signal.all.flatMap fun signal =>
        (s.traps.lookup signal.name).elim [] fun action =>
          "trap -- ".toList ++ quoted action ++ ' ' :: signal.name ++ ['\n'])
  | action :: names =>
      let isReset := action == ['-'] || names.isEmpty || (Text.digits? action).isSome
      let names := if action == ['-'] then names else if isReset then action :: names else names
      match names.mapM Signal.ofText? with
      | none => fail "trap: bad trap"
      | some signals =>
          let names := signals.map (·.name)
          let others := s.traps.filter (!names.contains ·.1)
          set { s with
            traps := if isReset then others else names.map (·, action) ++ others, status := 0 }

/-- The job that an argument names, by its number or by its place in the list. -/
def job? (s : Machine) (arg : List Char) : Option Job :=
  let listed := s.jobs.filter (!·.isForgotten)
  match arg with
  | '%' :: name =>
      if name.isEmpty || name == ['%'] || name == ['+'] then listed.head?
      else if name == ['-'] then listed[1]?
      else (Text.digits? name).bind fun ds => listed.find? (·.slot == Text.number ds)
  | _ => (Text.digits? arg).bind fun ds => s.jobs.find? (·.process == Text.number ds)

/-- Complain about an argument that names no job. -/
def noJob (name : String) (arg : List Char) : Action m Unit := do
  complain (name ++ ": No such job: " ++ String.ofList arg)
  finish 2

/-- Wait for jobs one after the other, until a signal comes. -/
def awaitAll : List Job → Action m Bool
  | [] => return true
  | job :: jobs => do if ← await job then awaitAll jobs else return false

/-- Wait for the jobs that arguments name, until a signal comes. -/
def awaitNamed : List (List Char) → Action m Unit
  | [] => return
  | arg :: args => do
      match job? (← get) arg with
      | some job => if ← await job then awaitNamed args
      | none =>
          if arg.head? == some '%' then noJob "wait" arg else finish 127
          awaitNamed args

/-- Wait for jobs: for those that are named, or for all. -/
def wait (args : List (List Char)) : Action m Unit := do
  if args.isEmpty then
    if ← awaitAll (← get).jobs.reverse then finish 0
  else awaitNamed args

/-- A job as a line of the list of jobs. Its place among the others is shown by a sign
for the last and for the one before. -/
def jobLine (isLong : Bool) (status : Option Nat) (place : Nat) (job : Job) : List Char :=
  let sign := if place = 0 then '+' else if place = 1 then '-' else ' '
  let state :=
    match status with
    | none => "Running"
    | some 0 => "Done"
    | some status =>
        match if 128 < status then Signal.ofNumber? (status - 128) else none with
        | some signal => signal.endingText
        | none => "Done(" ++ toString status ++ ")"
  let number := if isLong then Text.decimal job.process ++ [' '] else []
  let front := '[' :: Text.decimal job.slot ++ [']', ' ', sign, ' '] ++ number ++ state.toList
  Line.ended (front ++ List.replicate (33 - front.length) ' ')

/-- List the jobs. One that has ended is listed for the last time. -/
def listJobs (args : List (List Char)) : Action m Unit := do
  let s ← get
  let listed := s.jobs.filter (!·.isForgotten)
  let rows := listed.mapIdx fun place job =>
    if args.contains ['-', 'p'] then Line.ended (Text.decimal job.process)
    else
      let status := (s.system.process? job.process).bind (·.status)
      jobLine (args.contains ['-', 'l']) status place job
  set { s with
    jobs := s.jobs.map fun (job : Job) =>
      { job with isForgotten := job.isForgotten || s.system.hasEnded job.process } }
  answer rows.flatten

/-- Refuse to change what a job does: that needs a shell with a terminal. -/
def refuseJob (name : String) : Action m Unit := do
  complain (name ++ ": No current job")
  finish 2

/-- List the names of signals, or tell the one of a number or of a status. -/
def listSignals (args : List (List Char)) : Action m Unit := do
  match args with
  | [] => answer (Line.join (['0'] :: (Signal.all.drop 1).map (·.name)))
  | arg :: _ =>
      match Text.digits? arg with
      | none =>
          complain ("kill: Illegal number: " ++ String.ofList arg)
          finish 2
      | some ds =>
          let number := Text.number ds
          match Signal.ofNumber? (if 128 < number then number - 128 else number) with
          | some signal =>
              if number = 0 then
                complain "kill: invalid signal number or exit status"
                finish 2
              else answer (Line.ended signal.name)
          | none => finish 2

/-- Send a signal to the process, to the job or, behind a dash, to the group that an argument
names. Nothing happens to a process that has ended. -/
def sendTo (signal : Signal) (target : List Char) : Action m Unit := do
  let s ← get
  let send := fun (number : Nat) => do
    if s.system.hasEnded number then
      complain "kill: No such process"
      finish 1
    else
      set { s with system := s.recorded.system.send signal number }
      leaveIfEnded
  match target, job? s target with
  | '-' :: group, _ =>
      let group := (Text.digits? group).elim 0 Text.number
      set { s with system := s.recorded.system.sendGroup signal group 0 }
      leaveIfEnded
  | '%' :: _, none => noJob "kill" target
  | _, some job => send job.process
  | _, none => send ((Text.digits? target).elim 0 Text.number)

/-- Send a signal to processes, or to the shell itself. -/
def sendSignal (args : List (List Char)) : Action m Unit := do
  let (signal, targets) :=
    match args with
    | ['-', 's'] :: name :: rest => (Signal.ofText? name, rest)
    | ('-' :: c :: cs) :: rest =>
        if c :: cs == ['-'] then (some .terminate, rest) else (Signal.ofText? (c :: cs), rest)
    | args => (some .terminate, args)
  let targets := if targets.head? == some ['-', '-'] then targets.tail else targets
  match signal, targets with
  | some signal, _ :: _ =>
      finish 0
      targets.forM (sendTo signal)
  | _, _ => finish 2

/-- Send a signal, or list the signals. -/
def kill (args : List (List Char)) : Action m Unit :=
  match args with
  | ['-', 'l'] :: args => listSignals args
  | args => sendSignal args

/-! ## Printing -/

/-- Write a formatted text. -/
def printf (form : EscapeForm) (args : List (List Char)) : Action m Unit := do
  let isEnded := args.head? == some ['-', '-']
  match if isEnded then args.tail else args with
  | [] =>
      complain "printf: usage: printf format [arg ...]"
      finish 2
  | format :: args =>
      if !isEnded && form == .octal && format.head? == some '-' && 2 ≤ format.length then
        complain ("printf: Illegal option " ++ String.ofList (format.take 2))
        finish 2
        return
      let (text, faults) := formatText form format args
      faults.forM fun fault => complain ("printf: " ++ fault.message)
      let status := FormatFault.statusOf faults
      let isWritten ← tell text
      finish (if isWritten then status else max 1 status)

/-! ## All of them -/

/-- The special command with a name, if there is one. -/
def special? (name : String) : Option (List (List Char) → Action m Unit) :=
  match name with
  | ":" => some fun _ => finish 0
  | "times" => some fun _ => answer "0m0.000000s 0m0.000000s\n0m0.000000s 0m0.000000s\n".toList
  | "exit" => some exit
  | "return" => some back
  | "break" => some (leave "break" .leave)
  | "continue" => some (leave "continue" .again)
  | "export" => some publish
  | "readonly" => some freeze
  | "unset" => some unset
  | "set" => some setAll
  | "shift" => some shift
  | "trap" => some trap
  | _ => none

/-- The other command of the shell with a name, if there is one. -/
def builtin? (name : String) : Option (List (List Char) → Action m Unit) :=
  match name with
  | "true" => some fun _ => finish 0
  | "umask" => some setMask
  | "ulimit" => some fun args =>
      if args.length ≤ 1 then answer "unlimited\n".toList else finish 0
  | "alias" => some setAliases
  | "unalias" => some unsetAliases
  | "jobs" => some listJobs
  | "fg" | "bg" => some fun _ => refuseJob name
  | "false" => some fun _ => finish 1
  | "local" => some declareLocal
  | "pwd" => some writeDirectory
  | "echo" => some fun args => answer (echoText args)
  | "printf" => some (printf .octal)
  | "read" => some readLine
  | "getopts" => some nextOption
  | "cd" | "chdir" => some changeDirectory
  | "test" => some (test "test")
  | "[" => some bracketTest
  | "wait" => some wait
  | "kill" => some kill
  | _ => none

end PlanOrbits.Shell.Action
