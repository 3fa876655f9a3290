import PlanOrbits.Shell.Machine

/-!
# Shells inside of shells

Commands that are run by a process of their own: in parentheses, on the two sides of a
pipe, inside of a word, or without being waited for. Such a process begins as a copy of
the shell around it. What it does to variables is lost; what it wrote, what it read, and
the time that it took are not.

A shell that was ended while it waited does nothing any more, but those for whom it
waited go on.
-/

namespace PlanOrbits.Shell

/-- How scripts and commands are run from inside of others. -/
structure Interpreter (m : Type → Type) where
  script : List Char → Action m Unit
  body : Command → Action m Unit
  /-- A program with its arguments. -/
  program : List Char → List (List Char) → Action m Unit

/-- How many rounds a loop goes at most. -/
def roundLimit : Nat := 1000000000

/-- A time that never comes, in milliseconds. -/
def eternity : Nat := 1000000000000

namespace Machine

/-- The state of a new process that begins as a copy. Signals that are ignored stay so. -/
def forked (s : Machine) : Machine :=
  let traps := s.traps.filter (·.2.isEmpty)
  let s := s.recorded
  let child :=
    { s with process := s.system.lastNumber + 1, isAlone := false, feed := none, traps, jobs := [] }
  { child with system := s.system.fork s.process child.reachable traps }

/-- What is shared after the process of a shell has come to its end. -/
def leave (s : Machine) : System := s.system.update s.process (·.ended (s.status % 256))

/-- The status of a process that has ended. -/
def statusOf (s : Machine) (number : Nat) : Nat :=
  ((s.system.process? number).bind (·.status)).getD 127

/-- The state after a process inside of this one has come to its end. -/
def join (before after : Machine) : Machine :=
  let after := { after with system := after.leave }
  { before with
    status := after.statusOf after.process
    system := after.system.forget after.process }

end Machine

namespace Action

variable {m : Type → Type} [Monad m]

/-- Run a computation; tells what ended it early, if anything did. -/
def attempt (p : Action m Unit) : Action m (Option Escape) :=
  tryCatch (do p; return none) fun e => return some e

/-- Let those go on who are ready, and those read who read what is written. -/
def giveWay : Action m Unit := do
  if (← get).system.isShared then rest [.now]
  else modify fun s => { s with system := s.recorded.system.settled }

/-- Run a shell to its end, and then the command that is set for the end. The status
stays what it was, unless that command exits with another one. -/
def ended (i : Interpreter m) (p : Action m Unit) : Action m Unit := do
  match ← attempt p with
  | some .gone => return
  | _ =>
      let s ← get
      match s.traps.lookup Signal.exit.name with
      | none | some [] => return
      | some text =>
          set { s with traps := s.traps.filter (·.1 != Signal.exit.name), loops := 0 }
          match ← attempt (i.script text) with
          | some .exit => return
          | _ => finish s.status

/-- Run a computation in a process, and wait for its end. The process begins with the
given state, and the one around it goes on with the other. -/
def within (i : Interpreter m) (around inside : Machine) (p : Action m Unit) : Action m Unit := do
  set inside
  ended i do
    giveWay
    p
  modify around.join
  leaveIfEnded

/-- Run a computation in a process of its own. -/
def isolated (i : Interpreter m) (p : Action m Unit) : Action m Unit := do
  let s ← get
  within i s s.forked p

/-- Run a program in a process of its own, which begins with a changed state. -/
def started (i : Interpreter m) (change : Machine → Machine) (name : List Char)
    (args : List (List Char)) : Action m Unit :=
  isolated i do
    modify fun s => { change s with isAlone := true }
    i.program name args

/-- The output of a computation. -/
def captured (i : Interpreter m) (p : Action m Unit) : Action m (List Char) := do
  let before ← get
  let id := before.nextStream
  let opened := before.openStream (.ofText .drain [])
  let around := { opened with kept := .input id :: opened.kept }
  let child := { around.forked with kept := before.kept }
  within i around (child.setChannel 1 (some (.output id))).recorded p
  let text ← takeRest id patience []
  modify fun s =>
    { s with
      kept := before.kept, status := before.status, innerStatus := s.status
      system := { s.system with streams := s.system.streams.filter (·.1 != id) } }
  return text

/-- Start a process that goes on for itself, with the given state. -/
def launch (i : Interpreter m) (child : Machine) (p : Action m Unit) : Action m Unit := do
  let routine := fun (system : System) => do
    return (← (ended i (do leaveIfEnded; p)).run { child with system }).state.leave
  modify fun s => { s with system := { child.recorded.system with isShared := true } }
  (Routine.start routine (.done ()) : Routine m Unit)

/-- Wait until a process ends. Tells whether it has; a signal that is heeded may come
first. -/
def awaitEnd (heeds : Bool) (number : Nat) : Nat → Action m Bool
  | 0 => return false
  | tries + 1 => do
      let s ← get
      if s.system.hasEnded number then return true
      else if heeds && s.hasSignal then return false
      else
        rest (.ending number :: if heeds then [.signal s.process] else [])
        awaitEnd heeds number tries

/-- Wait until a process ends, but no longer than to a time. Tells whether it has ended. -/
def awaitUntil (number time : Nat) : Nat → Action m Bool
  | 0 => return false
  | tries + 1 => do
      let s ← get
      if s.system.hasEnded number then return true
      else if time ≤ s.clock then return false
      else
        rest [.ending number, .time time]
        awaitUntil number time tries

/-- Run two computations at the same time; the output of the first is the input of the
second. `isLonger` holds where the second is itself made of several parts. -/
def piped (i : Interpreter m) (isLonger : Bool) (first second : Action m Unit) :
    Action m Unit := do
  let before ← get
  let id := before.nextStream
  let opened := before.openStream (.ofText .pipe [])
  let child := opened.forked.setChannel 1 (some (.output id))
  launch i (before.feed.elim child fun feed => child.setChannel 0 (some (.input feed))) first
  let system := (← get).system
  if isLonger then
    set { opened with system, feed := some id }
    second
  else
    let around := { opened with system, feed := none }
    within i around (around.forked.setChannel 0 (some (.input id))).recorded second
  let _ ← awaitEnd false child.process patience
  modify fun s => { s with system := s.system.forget child.process }

/-- Run a computation without waiting for it. It has no input. -/
def detached (i : Interpreter m) (p : Action m Unit) : Action m Unit := do
  let s ← get
  let child := s.forked.setChannel 0 (some .nowhere)
  launch i child p
  modify fun s =>
    let job : Job :=
      { process := child.process, slot := s.freeSlot, isAwaited := false, isForgotten := false }
    { s with jobs := job :: s.jobs, lastJob := child.process, status := 0 }

/-- Wait for the end of a job, whose status becomes the status. Tells whether the job has
ended; otherwise a signal came first. -/
def await (job : Job) : Action m Bool := do
  if ← awaitEnd true job.process patience then
    modify fun s =>
      { s with
        status := s.statusOf job.process
        jobs := s.jobs.map fun other =>
          if other.process = job.process then { other with isAwaited := true } else other }
    return true
  else
    let s ← get
    finish ((s.system.signalsOf s.process).head?.elim 0 Signal.status)
    return false

/-- So many rounds of a loop take no longer than they need; those that follow are taken to
be rounds of a loop that only waits. -/
def quickRounds : Nat := 200000

/-- Does a round of a loop take time, behind so many others? -/
def isSlow (rounds : Nat) : Bool := rounds % 1000 = 999 || quickRounds ≤ rounds

/-- Let a millisecond pass if it matters: if others go on meanwhile, or if the time is
limited. -/
def linger : Action m Unit := do
  let system := (← get).system
  if system.isShared || system.deadline.isSome then pass 1

/-- Let time pass for a round of a loop: a millisecond for a round in which something was
started, or for a thousand rounds. -/
def spend (rounds : Nat) (hasStarted : Bool) : Action m Unit := do
  if hasStarted || isSlow rounds then linger

/-- Repeat a computation as long as it asks for it. -/
def repeated (p : Action m Bool) : Action m Unit := do
  let round := fun rounds => do
    let before := (← get).system.lastNumber
    if !(← p) then return false
    spend rounds ((← get).system.lastNumber != before)
    return true
  if !(← Procedure.iterate round roundLimit 0) then throw .gone

end Action

end PlanOrbits.Shell
