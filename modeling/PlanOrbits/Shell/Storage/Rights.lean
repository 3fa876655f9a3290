import PlanOrbits.Text.Blank
import PlanOrbits.Text.Digits

/-!
# Rights

The rights of a file are twelve bits: reading, writing and executing for the owner, for
the group and for the others, and three more in front of them. A change of rights is
written as digits to the base eight, or as clauses that say who gets or loses what.
-/

namespace PlanOrbits.Rights

/-- All bits. -/
def all : Nat := 0o7777

/-- Does a file with these rights have one of the bits? -/
def hasAny (bits rights : Nat) : Bool := rights &&& bits != 0

/-- The rights without some bits. -/
def without (bits rights : Nat) : Nat := rights &&& (all - (bits &&& all))

/-- What a file begins with, for the rights that new files do not get. -/
def ofNewFile (mask : Nat) : Nat := without mask 0o666

/-- What a directory begins with. -/
def ofNewDirectory (mask : Nat) : Nat := without mask 0o777

/-! ## Digits -/

/-- The number that digits to the base eight denote. -/
def octal? (cs : List Char) : Option Nat := do
  let ds ← Text.digits? cs
  if ds.all (· < 8) then some (ds.foldl (fun n d => 8 * n + d) 0) else none

/-- Rights as digits to the base eight. -/
def digits (rights : Nat) : List Char := Nat.toDigits 8 rights

/-- The rights of one class as letters; `special` is the letter for the bit in front if
it is set. -/
def classLetters (rights : Nat) (special : Option Char) : List Char :=
  let letter := fun (bit : Nat) (c : Char) => if hasAny bit rights then c else '-'
  let last :=
    match special with
    | some c => if hasAny 1 rights then c else c.toUpper
    | none => letter 1 'x'
  [letter 4 'r', letter 2 'w', last]

/-- Rights as nine letters. -/
def letters (rights : Nat) : List Char :=
  let special := fun (bit : Nat) (c : Char) => if hasAny bit rights then some c else none
  classLetters (rights / 64 % 8) (special 0o4000 's') ++
    classLetters (rights / 8 % 8) (special 0o2000 's') ++
    classLetters (rights % 8) (special 0o1000 't')

/-! ## Changes -/

/-- The bits of the classes with the given letters. -/
def classBits (letters : List Char) : Nat :=
  letters.foldl (fun bits c =>
    bits ||| match c with
      | 'u' => 0o4700
      | 'g' => 0o2070
      | 'o' => 0o1007
      | _ => all) 0

/-- The bits that a letter names, for all classes. -/
def letterBits? (isDirectory : Bool) (rights : Nat) : Char → Option Nat
  | 'r' => some 0o444
  | 'w' => some 0o222
  | 'x' => some 0o111
  | 'X' => some (if isDirectory || hasAny 0o111 rights then 0o111 else 0)
  | 's' => some 0o6000
  | 't' => some 0o1000
  | 'u' => some (rights / 64 % 8 * 0o111)
  | 'g' => some (rights / 8 % 8 * 0o111)
  | 'o' => some (rights % 8 * 0o111)
  | _ => none

/-- Change rights as the operators of a clause say. -/
def applyClause? (isDirectory : Bool) (mask : Nat) (classes : List Char) :
    Nat → (rights : Nat) → List Char → Option Nat
  | 0, _, _ => none
  | _, rights, [] => some rights
  | fuel + 1, rights, operator :: cs => do
      if !(['+', '-', '='].contains operator) then none
      let named := cs.takeWhile fun c => !(['+', '-', '='].contains c)
      let bits ←
        match octal? named with
        | some bits => some bits
        | none => named.foldlM (fun bits c => do
            return bits ||| (← letterBits? isDirectory rights c)) 0
      let touched := if classes.isEmpty then all else classBits classes
      let bits := if classes.isEmpty then without mask bits else bits &&& touched
      let rights :=
        match operator with
        | '+' => rights ||| bits
        | '-' => without bits rights
        | _ => without touched rights ||| bits
      applyClause? isDirectory mask classes fuel rights (cs.drop named.length)

/-- The rights after a change, which may leave those alone that new files do not get. -/
def change? (isDirectory : Bool) (mask rights : Nat) (text : List Char) : Option Nat :=
  match octal? text with
  | some new => if new ≤ all then some new else none
  | none =>
      (Text.pieces (· == ',') text).foldlM (fun rights clause =>
        let classes := clause.takeWhile fun c => ['u', 'g', 'o', 'a'].contains c
        let rest := clause.drop classes.length
        if rest.isEmpty then none
        else applyClause? isDirectory mask classes (rest.length + 1) rights rest) rights

end PlanOrbits.Rights
