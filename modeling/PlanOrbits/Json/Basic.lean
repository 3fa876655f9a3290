import PlanOrbits.Text.Digits

/-!
# JSON documents

A document as a tree that keeps what its text says:

* **Objects keep every entry in order**, repeated names included. Whether a
  repeated name matters is up to the reader of the object.
* **Numbers keep their spelling** up to the letter case and the plus sign of an
  exponent, so that a reader can tell `1` from `1.0` and `0` from `-0`.
* **A string may denote no text**: an escape for one half of a surrogate pair is
  well formed but stands for no character. Such a string does no harm until it
  is read, and is held as `none`.
-/

namespace PlanOrbits

/-- A number as it is spelled. An absent fraction has no digits. -/
structure Numeral where
  negative : Bool
  whole : List Nat
  fraction : List Nat
  /-- The sign (is it negative?) and the digits of the exponent. -/
  exponent : Option (Bool × List Nat)
  deriving DecidableEq, Repr

/-- A JSON document. -/
inductive Json where
  | null
  | bool (value : Bool)
  | number (value : Numeral)
  | string (text : Option String)
  | array (items : List Json)
  | object (fields : List (Option String × Json))
  deriving Inhabited

namespace Json

/-- A string that denotes a text. -/
def text (s : String) : Json := string (some s)

/-- An object with the given entries. -/
def record (fields : List (String × Json)) : Json :=
  object (fields.map fun (name, value) => (some name, value))

end Json

/-- The spelling of a natural number. -/
def Numeral.ofNat (n : Nat) : Numeral :=
  { negative := false, whole := (Text.decimal n).filterMap Text.digit?, fraction := [],
    exponent := none }

/-- The natural number of a numeral that has no sign, fraction or exponent. -/
def Numeral.toNat? (n : Numeral) : Option Nat :=
  if n.negative ∨ n.fraction ≠ [] ∨ n.exponent.isSome then none
  else some (Text.number n.whole)

end PlanOrbits
