import PlanOrbits.Bytes.Chars
import PlanOrbits.Shell.Storage.Basic
import PlanOrbits.Shell.Storage.Rights
import PlanOrbits.Shell.Command
import PlanOrbits.Shell.Procedure
import PlanOrbits.Shell.Switch
import PlanOrbits.Text.Digits

/-!
# The state of a shell

A shell has variables, options and functions of its own, and shares the rest with other
processes: what it writes can be read by them, and it may have to wait for them.

A process writes as much as there is room for, and waits until there is room again. One
that writes what nobody can read gets a signal, and fails if it does not end by that.
-/

namespace PlanOrbits.Shell

/-- A command that is not waited for. -/
structure Job where
  process : Nat
  /-- The place in the list of jobs. -/
  slot : Nat
  /-- Was it waited for? -/
  isAwaited : Bool
  /-- Is it no longer in the list of jobs? -/
  isForgotten : Bool

/-- The state of a shell. -/
structure Machine where
  /-- The number by which the shell calls itself. A copy of it keeps that number. -/
  number : Nat
  /-- The number of its process. -/
  process : Nat
  /-- Is the command that is running all that this copy of a shell runs? A program
  then takes its number. -/
  isAlone : Bool
  /-- The options that are on. -/
  switches : List Switch
  /-- Texts that stand for the words by which commands are called. -/
  aliases : List (List Char × List Char)
  bindings : List (List Char × List Char)
  /-- The variables that programs can see. -/
  exports : List (List Char)
  /-- The variables that keep their values. -/
  constants : List (List Char)
  /-- The commands that have a name. -/
  functions : List (List Char × Command)
  /-- The name of the script and its arguments. -/
  parameters : List (List Char)
  /-- The values that variables had outside of the function that is running. -/
  locals : List (List Char × Option (List Char))
  /-- The options that were on outside of that function, if they are put back. -/
  localSwitches : Option (List Switch)
  /-- How many functions are running. -/
  calls : Nat
  /-- The status of the last command; zero is success. -/
  status : Nat
  /-- The status of the last script inside of a word. -/
  innerStatus : Nat
  /-- Where the streams with the given numbers lead; the others are closed. -/
  channels : List (Nat × Channel)
  /-- The channels that will be put back. -/
  kept : List Channel
  /-- From where the next part of a pipeline reads, if one is being started. -/
  feed : Option Nat
  /-- The jobs, the last one first. -/
  jobs : List Job
  /-- The number of the last job; zero is none. -/
  lastJob : Nat
  /-- Commands for signals, and for the end of the shell. -/
  traps : List (List Char × List Char)
  /-- The text by which a branch is being chosen. -/
  subject : List Char
  /-- How many loops are running. -/
  loops : Nat
  /-- The status of the last round of the loop. -/
  roundStatus : Nat
  /-- How many tests are running, in which a command may fail. -/
  tests : Nat
  /-- The path of the directory in which paths begin, from the root on. -/
  directory : List Char
  /-- The rights that new files do not get. -/
  mask : Nat
  /-- The paths of the programs that were looked for. -/
  located : List (List Char × List Char)
  /-- What is shared with other processes. -/
  system : System

namespace Machine

/-- The variables that are there from the beginning. -/
def environment : List (List Char × List Char) :=
  [("HOME", "/root"), ("PATH", "/usr/local/sbin:/usr/local/bin:/usr/sbin:/usr/bin:/sbin:/bin")].map
    fun (name, value) => (name.toList, value.toList)

/-- The variables of a new shell, which knows those that are handed on to it. -/
def ownBindings (parent : Nat) (directory : List Char) (known : List (List Char × List Char)) :
    List (List Char × List Char) :=
  let fixed := [("IFS".toList, [' ', '\t', '\n']), ("OPTIND".toList, ['1']),
    ("PPID".toList, Text.decimal parent), ("PWD".toList, directory)]
  let usual :=
    [("PS1".toList, ['#', ' ']), ("PS2".toList, ['>', ' ']), ("PS4".toList, ['+', ' '])] ++
    environment.filter (·.1 == "PATH".toList)
  let known := known.filter fun (name, _) => (fixed.lookup name).isNone
  fixed ++ known ++ usual.filter fun (name, _) => (known.lookup name).isNone

/-- The state at the beginning. -/
def start (parameters : List (List Char)) (directory : List Char) (system : System) : Machine :=
  let number := System.firstNumber
  { number, process := number, isAlone := false, switches := [], aliases := []
    bindings := ownBindings (number - 1) directory environment
    exports := environment.map Prod.fst, constants := []
    functions := [], parameters, locals := [], localSwitches := none, calls := 0, status := 0
    innerStatus := 0
    channels := [(0, .input 0), (1, .output 1), (2, .output 2)], kept := [], feed := none
    jobs := [], lastJob := 0, traps := [], subject := [], loops := 0, roundStatus := 0, tests := 0
    directory, mask := 0o022, located := [], system }

variable (s : Machine)

/-- Is an option on? -/
def isOn (switch : Switch) : Bool := s.switches.contains switch

/-! ## Variables -/

/-- The value of a variable. -/
def binding? (name : List Char) : Option (List Char) := s.bindings.lookup name

/-- The paths of programs that are still known after a variable has changed. -/
def locatedAfter (name : List Char) : List (List Char × List Char) :=
  if name == "PATH".toList then [] else s.located

/-- Give a variable a value. -/
def assign (name value : List Char) : Machine :=
  { s with
    bindings := (name, value) :: s.bindings.filter (·.1 != name)
    located := s.locatedAfter name }

/-- Take away a variable. -/
def unassign (name : List Char) : Machine :=
  { s with bindings := s.bindings.filter (·.1 != name), located := s.locatedAfter name }

/-- Give a variable a value, or take it away. -/
def setBinding (name : List Char) : Option (List Char) → Machine
  | some value => s.assign name value
  | none => s.unassign name

/-- The value of a parameter or a variable, if there is one. -/
def value? (name : List Char) : Option (List Char) :=
  match name with
  | ['?'] => some (Text.decimal s.status)
  | ['#'] => some (Text.decimal (s.parameters.length - 1))
  | ['$'] => some (Text.decimal s.number)
  | ['!'] => if s.lastJob = 0 then none else some (Text.decimal s.lastJob)
  | ['-'] => some (Switch.letters s.switches)
  | ['@'] | ['*'] => some (List.intercalate [' '] s.parameters.tail)
  | _ =>
      match Text.digits? name with
      | some digits => s.parameters[Text.number digits]?
      | none => s.binding? name

/-- The value of a parameter or a variable; no value is an empty one. -/
def value (name : List Char) : List Char := (s.value? name).getD []

/-- The characters that separate fields. -/
def separators : List Char := (s.binding? ['I', 'F', 'S']).getD [' ', '\t', '\n']

/-! ## Streams -/

/-- Where a stream leads, unless it is closed. -/
def channel? (stream : Nat) : Option Channel := s.channels.lookup stream

/-- Let a stream lead somewhere, or close it. -/
def setChannel (stream : Nat) (channel : Option Channel) : Machine :=
  { s with channels := (channel.map (stream, ·)).toList ++ s.channels.filter (·.1 != stream) }

/-- Where the shell, or a command around the one that is running, can read and write. -/
def reachable : List Channel :=
  s.channels.map Prod.snd ++ s.kept ++ (s.feed.map Channel.input).toList

/-- The number of the next stream. -/
def nextStream : Nat := s.system.streamCount

/-- The state with one more stream. -/
def openStream (stream : Stream) : Machine :=
  { s with system := (s.system.tidied s.reachable).openStream stream }

/-- The state with one more text, which a stream gives. -/
def openText (stream : Nat) (kind : StreamKind) (text : List Char) : Machine :=
  (s.openStream (.ofText kind text)).setChannel stream (some (.input s.nextStream))

/-- The number of what a stream gives. -/
def input? (stream : Nat) : Option Nat :=
  match s.channel? stream with
  | some (.input id) => some id
  | _ => none

/-- Can anybody write into the stream with a number? -/
def isWritten (id : Nat) : Bool :=
  s.reachable.contains (.output id) || s.system.isHeld (.output id) s.process

/-- Can anybody read from the stream with a number? -/
def isRead (id : Nat) : Bool :=
  s.system.isRead id || s.reachable.contains (.input id) || s.system.isHeld (.input id) s.process

/-! ## Processes -/

/-- The milliseconds since the beginning. -/
def clock : Nat := s.system.clock

/-- The state in which the others know what the shell can use, and what it does on
signals. -/
def recorded : Machine :=
  { s with
    system := s.system.update s.process fun p =>
      { p with channels := if p.isAlive then s.reachable else [], traps := s.traps } }

/-- Has the process of the shell been ended? -/
def isEnded : Bool := s.system.hasEnded s.process

/-- Is there a signal that the shell has not heeded yet? -/
def hasSignal : Bool := !(s.system.signalsOf s.process).isEmpty

/-- The lowest place in the list of jobs that is free. -/
def freeSlot : Nat :=
  let taken := (s.jobs.filter fun job =>
    !job.isForgotten && !(job.isAwaited && s.system.hasEnded job.process)).map (·.slot)
  ((List.range (taken.length + 1)).find? fun n => !taken.contains (n + 1)).elim 1 (· + 1)

end Machine

/-! ## Computations -/

/-- What ends a sequence of commands early. -/
inductive Escape where
  /-- The shell ends. -/
  | exit
  /-- The shell ends at once, and does nothing any more. -/
  | gone
  /-- So many loops end. -/
  | leave (loops : Nat)
  /-- All but one of so many loops end, and that one goes on. -/
  | again (loops : Nat)
  /-- The function ends. -/
  | back
  deriving DecidableEq, Repr

/-- A computation of a shell. -/
abbrev Action (m : Type → Type) := Procedure Escape Machine m

namespace Action

variable {m : Type → Type} [Monad m]

/-- Set the status. -/
def finish (status : Nat) : Action m Unit := modify fun s => { s with status }

/-- Set the status of a command that succeeded or failed. -/
def succeed (isGood : Bool) : Action m Unit := finish (if isGood then 0 else 1)

/-- End the shell. -/
def quit : Action m Unit := throw .exit

/-- Did the last command succeed? -/
def isGood : Action m Bool := return (← get).status == 0

/-! ## Waiting -/

/-- How often something is tried that has to be waited for. -/
def patience : Nat := 1000000000

/-- Do nothing any more if the process was ended. -/
def leaveIfEnded : Action m Unit := do if (← get).isEnded then throw .gone

/-- Let others go on until one of some events has come. -/
def rest (events : List Event) : Action m Unit := do
  let s ← get
  let system ←
    (Routine.pause (.ending s.process :: events) s.recorded.system .done : Routine m System)
  set { s with system }
  leaveIfEnded

/-- Wait for so many milliseconds. -/
def pass (milliseconds : Nat) : Action m Unit := do
  rest [.time ((← get).clock + milliseconds)]

/-- Send a signal to the process itself. -/
def receive (signal : Signal) : Action m Unit := do
  modify fun s => { s with system := s.recorded.system.send signal s.process }
  leaveIfEnded

/-! ## Reading -/

/-- Wait until there is something in a stream, and return the stream. There is none at the
end, or if a signal comes first that is heeded at once. -/
def awaitInput (heeds : Bool) (id : Nat) : Nat → Action m (Option Stream)
  | 0 => return none
  | tries + 1 => do
      let s ← get
      match s.system.stream? id with
      | none => return none
      | some stream =>
          if stream.size != 0 then return some stream
          else if !s.isWritten id || heeds && s.hasSignal then return none
          else
            rest (.input id :: if heeds then [.signal s.process] else [])
            awaitInput heeds id tries

/-- Put a stream in the place of the one with a number. -/
def setStream (id : Nat) (stream : Stream) : Action m Unit :=
  modify fun s => { s with system := s.system.setStream id stream }

/-- Read what there is, but no more than so many characters, once there is something.
Nothing comes from a stream that is closed or at its end. -/
def takeBlock (stream size : Nat) : Action m (Option (List Char)) := do
  match (← get).input? stream with
  | none => return none
  | some id =>
      match ← awaitInput false id patience with
      | none => return none
      | some stream =>
          let (text, stream) := stream.takeBlock size
          setStream id stream
          return some text

/-- Read the rest of a stream; `pieces` is what was read before, the last piece first. -/
def takeRest (id : Nat) : Nat → (pieces : List (List Char)) → Action m (List Char)
  | 0, pieces => return pieces.reverse.flatten
  | tries + 1, pieces => do
      match ← awaitInput false id patience with
      | none => return pieces.reverse.flatten
      | some stream =>
          setStream id stream.emptied
          takeRest id tries (stream.text :: pieces)

/-- Read until there are so many characters, or to the end; `pieces` is what was read
before, the last piece first. -/
def takeMuch : Nat → (size : Nat) → (pieces : List (List Char)) → Action m (List Char)
  | 0, _, pieces => return pieces.reverse.flatten
  | tries + 1, size, pieces => do
      if size = 0 then return pieces.reverse.flatten
      match ← takeBlock 0 size with
      | none => return pieces.reverse.flatten
      | some text => takeMuch tries (size - text.length) (text :: pieces)

/-- All that is left of the input. -/
def takeInput : Action m (List Char) := do
  match (← get).input? 0 with
  | none => return []
  | some id => takeRest id patience []

/-- Read from a stream up to a line feed, and tell whether there was one; `line` is what
was read before. -/
def takeLineOf (id : Nat) : Nat → (line : List Char) → Action m (List Char × Bool)
  | 0, line => return (line, false)
  | tries + 1, line => do
      match ← awaitInput true id patience with
      | none => return (line, false)
      | some stream =>
          let (more, isEnded, stream) := stream.takeLine
          setStream id stream
          let line := if line.isEmpty then more else line ++ more
          if isEnded then return (line, true) else takeLineOf id tries line

/-- A line of the input, and whether a line feed ended it. -/
def takeLine : Action m (List Char × Bool) := do
  match (← get).input? 0 with
  | none => return ([], false)
  | some id => takeLineOf id patience []

/-! ## Files -/

variable [Storage m]

/-- The path that a text means, given the directory in which paths begin. -/
def fullPath? (path : List Char) : Action m (Option String) := do
  let directory := (← get).directory
  return Bytes.textOfChars?
    (if path.head? == some '/' then path else directory ++ '/' :: path)

/-- The path that a text means, without the links on the way. -/
def pathOf? (path : List Char) : Action m (Option String) := do
  return (← fullPath? path).bind (← (Storage.register : m Register)).plainPath?

/-- The place of an entry: a link is the entry itself. -/
def entryPlace? (path : List Char) : Action m (Option Location) := do
  return (← fullPath? path).bind (← (Storage.register : m Register)).entryPlace?

/-- The place of the file to which a path leads. -/
def filePlace? (path : List Char) : Action m (Option Location) := do
  return (← fullPath? path).bind (← (Storage.register : m Register)).filePlace?

/-- Change what is known of files. -/
def changeRegister (change : Register → Register) : Action m Unit := do
  let register ← (Storage.register : m Register)
  (Storage.setRegister (change register) : m Unit)

/-- Change what is known of the file at a path. -/
def noteFile (path : List Char) (change : Note → Note) : Action m Unit := do
  if let some place := ← filePlace? path then
    changeRegister (·.update place change)

/-- Note that a file was written now. A new one gets the usual rights. -/
def noteWriting (path : List Char) (isNew : Bool) : Action m Unit := do
  let s ← get
  noteFile path fun note =>
    { note with
      time := some s.clock
      mode := if isNew then some (Rights.ofNewFile s.mask) else note.mode }

/-- Is a path one of the input? -/
def isInputPath (path : List Char) : Bool :=
  path == "/dev/stdin".toList || path == "/dev/fd/0".toList

/-- The bytes of a file that is always there; a device gives as many as anyone asks
for. -/
def usualText? (path : List Char) : Option (List Char) :=
  match String.ofList path with
  | "/etc/passwd" => some "root:x:0:0:root:/root:/bin/bash\n".toList
  | "/dev/zero" | "/dev/full" => some (List.replicate 1100000 '\x00')
  | "/dev/urandom" | "/dev/random" =>
      some ((List.range 65536).map fun n => Char.ofNat (n * (n + 7) * 40503 / 256 % 256))
  | _ => none

/-- The content of a file as characters. The input is a file, too. -/
def readFile? (path : List Char) : Action m (Option (List Char)) := do
  if isInputPath path then return some (← takeInput)
  if let some text := usualText? path then return some text
  match ← pathOf? path with
  | none => return none
  | some path => return (← (Storage.read? path : m (Option (List UInt8)))).map Bytes.chars

/-- Is there a directory at a path? -/
def isDirectory (path : List Char) : Action m Bool := do
  match ← pathOf? path with
  | none => return false
  | some path => return (← (Storage.entries? path : m (Option (List String)))).isSome

/-- Give a file new content. Tells whether it was possible. -/
def writeFile (path text : List Char) : Action m Bool := do
  match ← pathOf? path with
  | none => return false
  | some name =>
      let old ← (Storage.read? name : m (Option (List UInt8)))
      let isWritten ← (Storage.write name (Bytes.ofChars text) : m Bool)
      if isWritten then noteWriting path old.isNone
      return isWritten

/-! ## Writing -/

/-- Write a text of so many characters into the stream with a number, and wait where there
is no room for it. Tells whether it was possible. -/
def putStream (id : Nat) : Nat → (size : Nat) → List Char → Action m Bool
  | 0, _, _ => return false
  | tries + 1, size, text => do
      let s ← get
      match s.isRead id, s.system.stream? id with
      | true, some stream =>
          let count := stream.accepted size
          if count = size then
            setStream id (stream.add text)
            return true
          else
            if count != 0 then setStream id (stream.add (text.take count))
            rest [.room id (size - count)]
            putStream id tries (size - count) (text.drop count)
      | _, _ => do
          receive .pipe
          return false

/-- Write a text into a channel. Tells whether it was possible. -/
def putInto (channel : Option Channel) (text : List Char) : Action m Bool := do
  match channel with
  | some (.output id) => putStream id patience text.length text
  | some .nowhere => return true
  | some (.file path) =>
      let old ← (Storage.read? path : m (Option (List UInt8)))
      (Storage.write path (old.getD [] ++ Bytes.ofChars text) : m Bool)
  | some (.input _) | some .full | none => return false

/-- Write a text to a stream. Tells whether it was possible. -/
def put (stream : Nat) (text : List Char) : Action m Bool := do
  putInto ((← get).channel? stream) text

/-- Write a text. Tells whether it was possible. -/
def tell (text : List Char) : Action m Bool := if text.isEmpty then return true else put 1 text

/-- Write a text, if that is possible. -/
def say (text : List Char) : Action m Unit := do let _ ← tell text

/-- Write a text and set the status: success, unless it cannot be written. -/
def answer (text : List Char) : Action m Unit := do succeed (← tell text)

/-- Write a message. -/
def complain (text : String) : Action m Unit := do
  let name := ((← get).parameters.headD ['s', 'h'])
  let _ ← put 2 (name ++ Bytes.charsOfText (": 1: " ++ text ++ "\n"))

/-- Complain, and end the shell. -/
def fail {α : Type} (message : String) : Action m α := do
  complain message
  finish 2
  throw .exit

/-- Give a variable a value for a command, which is named in messages. To try that with
a constant ends the shell. -/
def assignFor (command : String) (name value : List Char) : Action m Unit := do
  let s ← get
  if s.constants.contains name then fail (command ++ String.ofList name ++ ": is read only")
  else
    let exports :=
      if s.isOn .exportAll && !s.exports.contains name then name :: s.exports else s.exports
    set { s.assign name value with exports }

/-- Give a variable a value. -/
def assign : (name value : List Char) → Action m Unit := assignFor ""

end Action

end PlanOrbits.Shell
