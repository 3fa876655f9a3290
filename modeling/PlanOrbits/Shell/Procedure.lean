import PlanOrbits.Shell.Routine

/-!
# Procedures

Routines that work on a state, and that can be left early. What follows a procedure is
handed on at once where that procedure neither pauses nor works on files; otherwise it
waits for the end of the routine. Both come to the same.
-/

namespace PlanOrbits.Shell

/-- How a procedure came to its end: with a value, or early for a reason. -/
inductive Procedure.Result (ε σ α : Type) where
  | ok (a : α) (s : σ)
  | left (e : ε) (s : σ)

/-- The state at the end of a procedure. -/
def Procedure.Result.state {ε σ α : Type} : Procedure.Result ε σ α → σ
  | ok _ s | left _ s => s

/-- A routine that works on a state, and that may be left early for a reason. -/
def Procedure (ε σ : Type) (m : Type → Type) (α : Type) : Type 1 :=
  σ → Routine m (Procedure.Result ε σ α)

namespace Procedure

variable {ε σ : Type} {m : Type → Type} {α β γ : Type}

/-- The routine of a procedure that begins with a state. -/
@[always_inline, inline]
def run (x : Procedure ε σ m α) (s : σ) : Routine m (Procedure.Result ε σ α) := x s

/-- What follows the end of a procedure; nothing does if it was left early. -/
@[inline] def follow (f : α → Procedure ε σ m β) :
    Procedure.Result ε σ α → Routine m (Procedure.Result ε σ β)
  | .ok a s => f a s
  | .left e s => .done (.left e s)

/-- What follows if a procedure was left early. -/
@[inline] def recover (handle : ε → Procedure ε σ m α) :
    Procedure.Result ε σ α → Routine m (Procedure.Result ε σ α)
  | .ok a s => .done (.ok a s)
  | .left e s => handle e s

/-- Leave the state as it is. -/
@[always_inline, inline]
protected def pure (a : α) : Procedure ε σ m α := fun s => .done (.ok a s)

/-- One procedure after the other. -/
@[always_inline, inline]
protected def bind (x : Procedure ε σ m α) (f : α → Procedure ε σ m β) :
    Procedure ε σ m β := fun s =>
  match x s with
  | .done (.ok a s) => f a s
  | .done (.left e s) => .done (.left e s)
  | r => r.bind (follow f)

/-- Go on with something else if a procedure is left early. -/
@[always_inline, inline]
protected def tryCatch (x : Procedure ε σ m α) (handle : ε → Procedure ε σ m α) :
    Procedure ε σ m α := fun s =>
  match x s with
  | .done (.ok a s) => .done (.ok a s)
  | .done (.left e s) => handle e s
  | r => r.bind (recover handle)

@[always_inline]
instance : Monad (Procedure ε σ m) where
  pure := Procedure.pure
  bind := Procedure.bind

@[always_inline]
instance : MonadStateOf σ (Procedure ε σ m) where
  get := fun s => .done (.ok s s)
  set := fun s _ => .done (.ok () s)
  modifyGet f := fun s => let (a, s) := f s; .done (.ok a s)

@[always_inline]
instance : MonadExceptOf ε (Procedure ε σ m) where
  throw := fun e s => .done (.left e s)
  tryCatch := Procedure.tryCatch

@[always_inline]
instance : MonadLift (Routine m) (Procedure ε σ m) where
  monadLift := fun x s => x.bind fun a => .done (.ok a s)

/-- A procedure that works on a part of the state. -/
@[inline] def onPart {δ τ : Type} (part : τ → σ) (replace : σ → τ → τ) (reason : ε → δ)
    (x : Procedure ε σ m α) : Procedure δ τ m α := fun t =>
  (x (part t)).bind fun
    | .ok a s => .done (.ok a (replace s t))
    | .left e s => .done (.left (reason e) (replace s t))

/-! ## Loops -/

/-- Repeat a procedure as long as it asks for it, but no more than so many times. The
procedure is given the number of the round. Tells whether it came to an end. -/
def iterate (x : Nat → Procedure ε σ m Bool) : (limit round : Nat) → Procedure ε σ m Bool
  | 0, _ => fun s => .done (.ok false s)
  | limit + 1, round => fun s =>
      match x round s with
      | .done (.ok true s) => iterate x limit (round + 1) s
      | .done (.ok false s) => .done (.ok true s)
      | .done (.left e s) => .done (.left e s)
      | r => r.bind (follow fun goesOn => if goesOn then iterate x limit (round + 1) else pure true)

/-- Run a procedure for each of some values, as long as it asks for it. -/
def forWhile (x : α → Procedure ε σ m Bool) : List α → Procedure ε σ m Unit
  | [] => fun s => .done (.ok () s)
  | a :: as => fun s =>
      match x a s with
      | .done (.ok true s) => forWhile x as s
      | .done (.ok false s) => .done (.ok () s)
      | .done (.left e s) => .done (.left e s)
      | r => r.bind (follow fun goesOn => if goesOn then forWhile x as else pure ())

end Procedure

end PlanOrbits.Shell
