import PlanOrbits.Shell.System

/-!
# Routines

Computations that take turns. A routine works on files, and now and then it pauses until
one of some events has come; then it hands over what processes share, and gets it back as
the others left it. A routine can also start another one, which goes on for itself.

Which routine goes on is not left to chance: the one that has waited longest among those
that can. If none can, time passes until the first of them can. Nothing goes on once
there is nothing left to wait for.
-/

namespace PlanOrbits.Shell

/-- A computation that takes turns with others. -/
inductive Routine (m : Type → Type) : Type → Type 1 where
  | done {α : Type} (a : α) : Routine m α
  /-- Work on files, and go on with the result. -/
  | files {α β : Type} (x : m β) (next : β → Routine m α) : Routine m α
  /-- Wait until one of some events has come. -/
  | pause {α : Type} (events : List Event) (s : System) (next : System → Routine m α) :
      Routine m α
  /-- Start another routine. -/
  | start {α : Type} (child : System → Routine m System) (next : Routine m α) : Routine m α

namespace Routine

variable {m : Type → Type}

/-- One routine after the other. -/
def bind {α β : Type} : Routine m α → (α → Routine m β) → Routine m β
  | done a, f => f a
  | files x next, f => files x fun b => (next b).bind f
  | pause events s next, f => pause events s fun s => (next s).bind f
  | start child next, f => start child (next.bind f)

instance : Monad (Routine m) where
  pure := done
  bind := bind

instance : MonadLift m (Routine m) := ⟨fun x => files x done⟩

/-- The result of a routine that neither pauses nor starts others. -/
def result? [Monad m] {α : Type} : Routine m α → m (Option α)
  | done a => pure (some a)
  | files x next => do result? (next (← x))
  | pause .. | start .. => pure none

/-! ## Turns -/

/-- A routine that waits, and what it hands over at its end. -/
structure Thread (m : Type → Type) where
  {Result : Type}
  events : List Event
  next : System → Routine m Result
  system : Result → System

/-- The first thread that can go on, and the others. -/
def ready? (s : System) : List (Thread m) → Option (Thread m × List (Thread m))
  | [] => none
  | t :: ts =>
      if t.events.any s.hasCome then some (t, ts)
      else (ready? s ts).map fun (found, others) => (found, t :: others)

variable [Monad m]

/-- Let a routine go on until it pauses, and then waits behind the other threads, or is at
its end. `next` is what follows. -/
def turn {α : Type} (next : System → List (Thread m) → m System) (system : α → System) :
    Routine m α → List (Thread m) → m System
  | done a, threads => next (system a) threads
  | files x rest, threads => do turn next system (rest (← x)) threads
  | pause events s rest, threads => next s (threads ++ [{ events, next := rest, system }])
  | start child rest, threads =>
      turn next system rest (threads ++ [{ events := [.now], next := child, system := id }])

/-- Let threads take turns as long as there is something to wait for. -/
def run : (turns : Nat) → System → List (Thread m) → m System
  | 0, s, _ => pure s
  | turns + 1, s, threads =>
      let s := s.settled
      if s.isOver then pure s
      else
        match ready? s threads with
        | some (t, others) =>
            turn (run turns) t.system (t.next { s with isShared := !others.isEmpty }) others
        | none =>
            match s.nextTime? (threads.flatMap (·.events)) with
            | some clock => run turns { s with clock } threads
            | none => pure s

end Routine

end PlanOrbits.Shell
