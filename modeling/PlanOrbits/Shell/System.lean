import PlanOrbits.Bytes.Chars
import PlanOrbits.Shell.Stream
import PlanOrbits.Text.Digits

/-!
# What processes share

The time, the streams between processes, and what is known of each process. Time is
counted, not waited for.

* A stream is at its **end** when nothing is left in it and no process can write into it.
* A pipe is **broken** when nobody can read from it any more.
* A process that has **ended** holds nothing.
-/

namespace PlanOrbits.Shell

/-!
## Signals

The signals that processes send to each other, by their numbers and their names, and what
they do to a process that has not asked for anything else.
-/

/-- A signal. -/
structure Signal where
  number : Nat
  name : List Char
  deriving DecidableEq, Repr

namespace Signal

/-- The names of the signals in the order of their numbers. The first is no signal, but
the end of a shell. -/
def names : List String :=
  let low := (List.range 15).map fun n => "RTMIN+" ++ toString (n + 1)
  let high := ((List.range 14).map fun n => "RTMAX-" ++ toString (14 - n)) ++ ["RTMAX"]
  ["EXIT", "HUP", "INT", "QUIT", "ILL", "TRAP", "ABRT", "BUS", "FPE", "KILL", "USR1",
    "SEGV", "USR2", "PIPE", "ALRM", "TERM", "16", "CHLD", "CONT", "STOP", "TSTP", "TTIN", "TTOU",
    "URG", "XCPU", "XFSZ", "VTALRM", "PROF", "WINCH", "IO", "PWR", "SYS", "32", "33", "RTMIN"] ++
    low ++ high

/-- All signals. -/
def all : List Signal :=
  ((List.range names.length).zip names).map fun (number, name) => { number, name := name.toList }

/-- The signal with a number. -/
def ofNumber? (number : Nat) : Option Signal := all.find? (·.number == number)

/-- The signal that a text names, by a number or by a name. -/
def ofText? (cs : List Char) : Option Signal :=
  let byNumber := (Text.digits? cs).bind fun ds => ofNumber? (Text.number ds)
  let upper := cs.map Char.toUpper
  let name := if ['S', 'I', 'G'].isPrefixOf upper then upper.drop 3 else upper
  byNumber.or (all.find? (·.name == name))

/-- The end of a shell. -/
def exit : Signal := { number := 0, name := "EXIT".toList }

/-- The signal that ends a process whatever it has asked for. -/
def kill : Signal := { number := 9, name := "KILL".toList }

/-- The signal for a process that writes what nobody can read. -/
def pipe : Signal := { number := 13, name := "PIPE".toList }

/-- The signal that asks a process to end. -/
def terminate : Signal := { number := 15, name := "TERM".toList }

/-- Does the signal leave a process alone that has not asked for anything else? Processes
that are stopped are taken to go on. -/
def isHarmless (s : Signal) : Bool :=
  ["CHLD", "CONT", "STOP", "TSTP", "TTIN", "TTOU", "URG", "WINCH"].any (·.toList == s.name)

/-- The status of a process that the signal has ended. -/
def status (s : Signal) : Nat := 128 + s.number

/-- The name of the signal that ends a process, as people read it. -/
def endingText (s : Signal) : String :=
  match String.ofList s.name with
  | "TERM" => "Terminated"
  | "KILL" => "Killed"
  | name => name

end Signal

/-! ## What is shared -/

/-- Where a stream of a process leads. -/
inductive Channel where
  | nowhere
  /-- To a place where nothing more can be written. -/
  | full
  /-- Into the stream with a number. -/
  | output (id : Nat)
  /-- From the stream with a number. -/
  | input (id : Nat)
  | file (path : String)
  deriving DecidableEq, Repr

/-! ## Processes -/

/-- What is known of a process. -/
structure Process where
  number : Nat
  /-- The number of the process that started it. -/
  parent : Nat
  /-- The number of the process that leads its group. -/
  group : Nat
  /-- Its status, once it has ended. -/
  status : Option Nat
  /-- Where it can read and write. -/
  channels : List Channel
  /-- What it does on signals, by their names. It ignores those on which it does
  nothing. -/
  traps : List (List Char × List Char)
  /-- The signals that it has not heeded yet. -/
  signals : List Signal

namespace Process

variable (p : Process)

/-- Is the process still there? -/
def isAlive : Bool := p.status.isNone

/-- The process after its end. An end is final. -/
def ended (status : Nat) : Process :=
  { p with status := some (p.status.getD status), channels := [], signals := [] }

/-- The process after a signal was sent to it. -/
def receive (signal : Signal) : Process :=
  if signal.number = 0 then p
  else if signal = .kill then p.ended signal.status
  else
    match p.traps.lookup signal.name with
    | some [] => p
    | some _ =>
        if p.signals.contains signal then p else { p with signals := p.signals ++ [signal] }
    | none => if signal.isHarmless then p else p.ended signal.status

end Process

/-- What a process can wait for. -/
inductive Event where
  | now
  /-- So many milliseconds after the beginning. -/
  | time (milliseconds : Nat)
  /-- There is something in a stream, or it is at its end. -/
  | input (id : Nat)
  /-- Some of so many characters can be written into a stream, or nobody can read from
  it. -/
  | room (id size : Nat)
  /-- A process ends. -/
  | ending (process : Nat)
  /-- A signal comes for a process. -/
  | signal (process : Nat)
  deriving DecidableEq, Repr

/-! ## Readers -/

/-- Somebody who reads all that is written into a stream, as long as its lines are
texts. -/
structure Reader where
  stream : Nat
  /-- What was read, the last piece first. -/
  pieces : List (List Char)
  /-- What was read of the line that is not complete. -/
  line : List Char
  isDone : Bool

namespace Reader

/-- Nothing is read yet. -/
def start (stream : Nat) : Reader := { stream, pieces := [], line := [], isDone := false }

/-- The reader after one more piece. A line that is no text is the last thing that it
reads. -/
def read (r : Reader) (text : List Char) : Reader :=
  let lines := Text.pieces (· == '\n') (r.line ++ text)
  { r with
    pieces := text :: r.pieces
    line := lines.getLast (Text.pieces_ne_nil _ _)
    isDone := r.isDone || lines.dropLast.any fun line => (Bytes.textOfChars? line).isNone }

/-- All that was read. -/
def text (r : Reader) : List Char := r.pieces.reverse.flatten

end Reader

/-! ## All of it -/

/-- What processes share. -/
structure System where
  /-- The milliseconds since the beginning. -/
  clock : Nat
  /-- The streams that may still be needed, by their numbers. -/
  streams : List (Nat × Stream)
  /-- How many streams there have been. -/
  streamCount : Nat
  processes : List Process
  /-- The number of the last process. -/
  lastNumber : Nat
  /-- Are there processes that go on at the same time? -/
  isShared : Bool
  /-- Those who read what the first process and all others write. -/
  readers : List Reader
  /-- How many bytes the input of the first process had. -/
  inputSize : Nat
  /-- When the first process is ended unless its output is at its end. -/
  deadline : Option Nat
  /-- Did that happen? -/
  isLate : Bool

namespace System

/-- The number of the first process. -/
def firstNumber : Nat := 1000

/-- A system with one process, which has an input, and whose output is read. -/
def start (deadline : Option Nat) (input : List Char) : System where
  clock := 0
  streams := [(0, .ofText .pipe input), (1, .ofText .drain []), (2, .ofText .drain [])]
  streamCount := 3
  processes :=
    [{ number := firstNumber, parent := firstNumber - 1, group := firstNumber, status := none
       channels := [.input 0, .output 1, .output 2], traps := [], signals := [] }]
  lastNumber := firstNumber
  isShared := false
  readers := [.start 1, .start 2]
  inputSize := input.length
  deadline
  isLate := false

variable (s : System)

/-! ### Processes -/

/-- What is known of the process with a number. -/
def process? (number : Nat) : Option Process := s.processes.find? (·.number == number)

/-- Has a process ended? One that is not known any more has. -/
def hasEnded (number : Nat) : Bool := !(s.process? number).any Process.isAlive

/-- Change what is known of a process. -/
def update (number : Nat) (change : Process → Process) : System :=
  { s with processes := s.processes.map fun p => if p.number = number then change p else p }

/-- The system with one more process, which a process has started. -/
def fork (parent : Nat) (channels : List Channel) (traps : List (List Char × List Char)) :
    System :=
  let number := s.lastNumber + 1
  let group := (s.process? parent).elim number (·.group)
  { s with
    lastNumber := number
    processes :=
      { number, parent, group, status := none, channels, traps, signals := [] } :: s.processes }

/-- The system without a process that has ended. -/
def forget (number : Nat) : System :=
  { s with processes := s.processes.filter (·.number != number) }

/-- Send a signal to a process. -/
def send (signal : Signal) (number : Nat) : System := s.update number (·.receive signal)

/-- Send a signal to the processes of a group but one. -/
def sendGroup (signal : Signal) (group except : Nat) : System :=
  { s with
    processes := s.processes.map fun p =>
      if p.group = group ∧ p.number ≠ except then p.receive signal else p }

/-- The signals that a process has not heeded. -/
def signalsOf (number : Nat) : List Signal := (s.process? number).elim [] (·.signals)

/-- Can any process but one use a channel? -/
def isHeld (channel : Channel) (except : Nat) : Bool :=
  s.processes.any fun p => p.number != except && p.isAlive && p.channels.contains channel

/-! ### Streams -/

/-- The stream with a number. -/
def stream? (id : Nat) : Option Stream := s.streams.lookup id

/-- Put a stream in the place of the one with a number. -/
def setStream (id : Nat) (stream : Stream) : System :=
  { s with streams := s.streams.map fun (other, old) =>
      (other, if other = id then stream else old) }

/-- So many streams may be there before those are forgotten that nobody needs. -/
def streamLimit : Nat := 40

/-- The system without the streams that no process can use. Those of the first process
are kept. -/
def tidied (channels : List Channel) : System :=
  if s.streams.length < streamLimit then s
  else
    { s with
      streams := s.streams.filter fun (id, _) =>
        id < 3 || [Channel.input id, .output id].any fun channel =>
          channels.contains channel || s.isHeld channel 0 }

/-- The system with one more stream, whose number is the number of the streams
before. -/
def openStream (stream : Stream) : System :=
  { s with streams := (s.streamCount, stream) :: s.streams, streamCount := s.streamCount + 1 }

/-- Is somebody there who reads whatever comes out of a stream? -/
def isRead (id : Nat) : Bool := s.readers.any fun r => r.stream == id && !r.isDone

/-- Has an event come? -/
def hasCome : Event → Bool
  | .now => true
  | .time time => time ≤ s.clock
  | .input id =>
      (s.stream? id).all fun stream => stream.size != 0 || !s.isHeld (.output id) 0
  | .room id size =>
      (s.stream? id).all fun stream =>
        stream.accepted size != 0 || !(s.isRead id || s.isHeld (.input id) 0)
  | .ending number => s.hasEnded number
  | .signal number => !(s.signalsOf number).isEmpty

/-- The first time after now of those that are waited for. -/
def nextTime? (events : List Event) : Option Nat :=
  let times := events.filterMap fun
    | .time time => some time
    | _ => none
  let times := s.deadline.toList ++ times
  (times.filter (s.clock < ·)).min?

/-! ### The end -/

/-- Let a reader read what is there. At the end of a stream it is done. -/
def served (r : Reader) : System × Reader :=
  match r.isDone, s.stream? r.stream with
  | false, some stream =>
      let r := if stream.size = 0 then r else r.read stream.text
      (s.setStream r.stream stream.emptied,
        { r with isDone := r.isDone || !s.isHeld (.output r.stream) 0 })
  | _, _ => (s, r)

/-- Let the readers read. If the output of the first process is not at its end in time,
the process is ended. -/
def settled : System :=
  let (s, readers) := s.readers.foldl (fun (s, readers) r =>
    let (s, r) := s.served r
    (s, readers ++ [r])) (s, [])
  let s := { s with readers }
  if s.isLate || !s.isRead 1 || s.deadline.all (s.clock < ·) then s
  else { s.send .kill firstNumber with isLate := true }

/-- The whole pages of a pipe that a reader has emptied are filled again. -/
def pageSize : Nat := 4096

/-- Does what is left of the input of the first process fit into a pipe? -/
def isFed : Bool :=
  (s.stream? 0).all fun stream =>
    s.inputSize - (s.inputSize - stream.size) / pageSize * pageSize ≤ Stream.capacity

/-- Is there nothing left to wait for? -/
def isOver : Bool :=
  s.hasEnded firstNumber && s.readers.all (·.isDone) && (s.isFed || !s.isHeld (.input 0) 0)

/-- The text that was written into the stream with a number, as far as it was read. -/
def textOf (id : Nat) : List Char :=
  (s.readers.find? (·.stream == id)).elim [] (·.text)

end System

end PlanOrbits.Shell
