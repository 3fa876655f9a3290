import PlanOrbits.Text.Blank
import PlanOrbits.Text.Digits

/-!
# Flags

The arguments of a utility: flags, some of which have a value, and operands. Flags
of one letter may be joined behind one dash, and the value of the last of them may
follow at once or as the next argument; a flag with a long name begins with two
dashes, and the name may be cut short where it stays the only one. Two dashes alone
end the flags.
-/

namespace PlanOrbits.Shell

/-- The flags that a utility knows. -/
structure FlagTable where
  /-- The letters without a value. -/
  plain : String
  /-- The letters with a value. -/
  valued : String
  /-- The letters for long names. -/
  long : List (String × Char)
  /-- May flags stand behind operands? -/
  isMixed : Bool
  /-- The letters whose value, if there is one, follows at once. -/
  optional : String := ""

/-- The flags and the operands among arguments. -/
structure Flags where
  /-- The flags in their order, with their values. -/
  given : List (Char × List Char)
  operands : List (List Char)

namespace Flags

/-- Nothing given. -/
def empty : Flags := { given := [], operands := [] }

variable (f : Flags)

/-- Is a flag given? -/
def has (c : Char) : Bool := f.given.any (·.1 == c)

/-- The value of a flag; the last one counts. -/
def value? (c : Char) : Option (List Char) := (f.given.reverse.find? (·.1 == c)).map Prod.snd

/-- All values of a flag. -/
def values (c : Char) : List (List Char) := (f.given.filter (·.1 == c)).map Prod.snd

/-- The number that is the value of a flag, or a default. -/
def number? (c : Char) (default : Nat) : Option Nat :=
  match f.value? c with
  | none => some default
  | some cs => (Text.digits? cs).map Text.number

/-- Read letters that are joined, and the arguments behind them. -/
def readLetters? (t : FlagTable) (f : Flags) :
    List Char → List (List Char) → Option (Flags × List (List Char))
  | [], args => some (f, args)
  | c :: cs, args =>
      if t.valued.toList.contains c then
        match cs, args with
        | [], value :: args => some ({ f with given := f.given ++ [(c, value)] }, args)
        | [], [] => none
        | cs, args => some ({ f with given := f.given ++ [(c, cs)] }, args)
      else if t.optional.toList.contains c then
        some ({ f with given := f.given ++ [(c, cs)] }, args)
      else if t.plain.toList.contains c then
        readLetters? t { f with given := f.given ++ [(c, [])] } cs args
      else none

/-- The letter for a long name, or for the beginning of one if that is enough to know
it. -/
def letter? (t : FlagTable) (name : List Char) : Option Char :=
  match t.long.lookup (String.ofList name) with
  | some c => some c
  | none =>
      let letters := (t.long.filter fun (long, _) => name.isPrefixOf long.toList).map Prod.snd
      match letters.eraseDups with
      | [c] => some c
      | _ => none

/-- Read a flag with a long name, and the arguments behind it. -/
def readLong? (t : FlagTable) (f : Flags) (text : List Char) (args : List (List Char)) :
    Option (Flags × List (List Char)) := do
  let (name, value?) :=
    match Text.cutAt? '=' text with
    | some (name, value) => (name, some value)
    | none => (text, none)
  let c ← letter? t name
  if t.valued.toList.contains c then
    match value?, args with
    | some value, args => return ({ f with given := f.given ++ [(c, value)] }, args)
    | none, value :: args => return ({ f with given := f.given ++ [(c, value)] }, args)
    | none, [] => none
  else if t.optional.toList.contains c then
    return ({ f with given := f.given ++ [(c, value?.getD [])] }, args)
  else return ({ f with given := f.given ++ [(c, [])] }, args)

/-- Read arguments. A dash alone is an operand. -/
def readFrom? (t : FlagTable) : Nat → Flags → List (List Char) → Option Flags
  | 0, _, _ => none
  | _, f, [] => some f
  | fuel + 1, f, arg :: args =>
      match arg with
      | ['-', '-'] => some { f with operands := f.operands ++ args }
      | '-' :: '-' :: name => do
          let (f, args) ← readLong? t f name args
          readFrom? t fuel f args
      | '-' :: c :: cs => do
          let (f, args) ← readLetters? t f (c :: cs) args
          readFrom? t fuel f args
      | _ =>
          let f := { f with operands := f.operands ++ [arg] }
          if t.isMixed then readFrom? t fuel f args
          else some { f with operands := f.operands ++ args }

/-- The flags and operands among arguments, if all flags are known. -/
def ofArgs? (t : FlagTable) (args : List (List Char)) : Option Flags :=
  readFrom? t (args.length + 1) empty args

end Flags

end PlanOrbits.Shell
