import PlanOrbits.Shell.Records.Program
import PlanOrbits.Shell.Records.Record
import PlanOrbits.Shell.Records.Value
import PlanOrbits.Shell.Subshell
import Std.Data.ExtTreeMap

/-!
# The memory of a record program

Variables and arrays, the record with its fields, the input that is left, and the
output so far. The number of fields is a variable like the others, which follows the
record.
-/

namespace PlanOrbits.Shell.Records

/-!
## Tables

The arrays of record programs: elements with texts as indices. They are visited by
bins: the bin of an index comes from a hash of its bytes, and within a bin the index
that was added last comes first. There are more bins when there are many elements.
-/

/-- Elements by their indices, each with the number of the addition that brought
it. -/
structure Table where
  elements : Std.ExtTreeMap String (Nat × Value)
  additions : Nat

namespace Table

/-- No element. -/
def empty : Table := { elements := ∅, additions := 0 }

variable (t : Table)

/-- How many elements there are. -/
def size : Nat := t.elements.size

/-- Is there an element with an index? -/
def contains (index : List Char) : Bool := t.elements.contains (String.ofList index)

/-- The element with an index. -/
def get? (index : List Char) : Option Value :=
  (t.elements[String.ofList index]?).map Prod.snd

/-- The table with an element at an index. -/
def insert (index : List Char) (v : Value) : Table :=
  let key := String.ofList index
  match t.elements[key]? with
  | some (n, _) => { t with elements := t.elements.insert key (n, v) }
  | none =>
      { elements := t.elements.insert key (t.additions, v), additions := t.additions + 1 }

/-- The table without the element at an index. -/
def erase (index : List Char) : Table :=
  { t with elements := t.elements.erase (String.ofList index) }

/-- The hash of an index: byte after byte is mixed in and multiplied by a prime. -/
def hash (index : List Char) : Nat :=
  index.foldl (fun h c => Nat.xor h c.toNat * 16777619 % Nat.pow 2 32) 2166136261

/-- How many bins there are for so many elements, twelve to a bin on average at
most. -/
def bins (size : Nat) : (doublings : Nat) → Nat → Nat
  | 0, n => n
  | doublings + 1, n => if size ≤ 12 * n then n else bins size doublings (2 * n)

/-- The indices in the order in which they are visited. -/
def indices : List (List Char) :=
  let n := bins t.size 32 64
  let numbered := t.elements.toList.map fun (key, k, _) => (key.toList, hash key.toList % n, k)
  (numbered.mergeSort fun (_, bin, k) (_, other, l) => bin < other || bin == other && l ≤ k).map
    Prod.fst

end Table

/-! ## Memories -/

/-- What a name stands for: a value, or else an array. -/
structure Slot where
  value : Value
  /-- The number of the array, if there is one. -/
  table : Option Nat

/-- Names with what they stand for, after a change for one of them. -/
def Slot.put (name : List Char) (slot : Slot) : List (List Char × Slot) → List (List Char × Slot)
  | [] => [(name, slot)]
  | (other, old) :: slots =>
      if other == name then (name, slot) :: slots else (other, old) :: put name slot slots

/-- The memory of a program. -/
structure Memory where
  globals : List (List Char × Slot)
  /-- The names of the function that is running. -/
  frame : List (List Char × Slot)
  tables : Array Table
  record : List Char
  fields : Array Value
  /-- What is left of the file that is being read, as far as it was read. -/
  rest : List Char
  /-- Is it the input, of which there may be more? -/
  isFlowing : Bool
  /-- The files that are still to be read, and assignments between them. -/
  operands : List (List Char)
  /-- Was any file read, or the input? -/
  isOpened : Bool
  /-- The pieces of the output that were not written yet, the last one first. -/
  output : List (List Char)
  /-- How many characters these are. -/
  outputSize : Nat
  /-- What was written to files and commands. -/
  written : List ((Direction × List Char) × List Char)
  /-- What is left of the texts that are read beside the input. -/
  sources : List (List Char × List Char)
  /-- The rules whose range has begun. -/
  ranges : List Nat
  status : Nat
  /-- The shell around the program. -/
  shell : Machine

namespace Memory

variable (s : Memory)

/-- What a name stands for. -/
def slot (name : List Char) : Slot :=
  ((s.frame.lookup name).or (s.globals.lookup name)).getD { value := .unset, table := none }

/-- The memory after a change of what a name stands for. -/
def setSlot (name : List Char) (slot : Slot) : Memory :=
  if (s.frame.lookup name).isSome then { s with frame := Slot.put name slot s.frame }
  else if (s.globals.lookup name).isSome then
    { s with globals := Slot.put name slot s.globals }
  else { s with globals := (name, slot) :: s.globals }

/-- The value of a variable as a text, without regard to formats. -/
def setting (name : List Char) : List Char := (s.slot name).value.toText ['%', '.', '6', 'g']

/-- The format for numbers inside of texts. -/
def format : List Char := s.setting ['C', 'O', 'N', 'V', 'F', 'M', 'T']

/-- The memory with another record. -/
def setRecord (cs : List Char) : Memory :=
  { s with
    record := cs
    fields :=
      ((fieldsOf (s.setting ['F', 'S']) (s.setting ['R', 'S']).isEmpty cs).map
        Value.input).toArray }

/-- The memory after the fields became a record again. -/
def joinFields : Memory :=
  { s with
    record :=
      List.intercalate (s.setting ['O', 'F', 'S']) (s.fields.toList.map (·.toText s.format)) }

/-- The memory with another number of fields. -/
def resize (count : Nat) : Memory :=
  { s with
    fields := s.fields.extract 0 count ++
      (List.replicate (count - s.fields.size) Value.unset).toArray }.joinFields

/-- A field; the one with the number zero is the record. -/
def field (n : Nat) : Value := if n = 0 then .input s.record else s.fields.getD (n - 1) .unset

/-- The memory after a change of a field. -/
def setField (n : Nat) (v : Value) : Memory :=
  if n = 0 then s.setRecord (v.toText s.format)
  else
    let s := if s.fields.size < n then s.resize n else s
    { s with fields := s.fields.setIfInBounds (n - 1) v }.joinFields

/-- The value of a variable. -/
def value (name : List Char) : Value :=
  if name == ['N', 'F'] then .ofNat s.fields.size else (s.slot name).value

/-- The memory after an assignment. -/
def assign (name : List Char) (v : Value) : Memory :=
  if name == ['N', 'F'] then s.resize (Rounded.truncated v.toReal).toNat
  else s.setSlot name { s.slot name with value := v }

/-- Add to a variable that counts. -/
def increment (name : List Char) : Memory :=
  s.assign name (.number ((s.value name).toReal + 1))

/-- The number of the array with a name, which is made if it is not there. -/
def tableOf (name : List Char) : Nat × Memory :=
  let slot := s.slot name
  match slot.table with
  | some id => (id, s)
  | none =>
      let id := s.tables.size
      let s := { s with tables := s.tables.push Table.empty }
      (id, s.setSlot name { slot with table := some id })

/-- The elements of an array. -/
def elements (id : Nat) : Table := s.tables.getD id Table.empty

/-- The memory after a change of an array. -/
def setElements (id : Nat) (t : Table) : Memory := { s with tables := s.tables.setIfInBounds id t }

/-- The memory after a text was written. -/
def write (text : List Char) : Memory :=
  { s with output := text :: s.output, outputSize := s.outputSize + text.length }

/-- The memory after a text was written to a file or a command. -/
def writeTo (target : Direction × List Char) (text : List Char) : Memory :=
  if s.written.any (·.1 == target) then
    { s with written := s.written.map fun (t, cs) => (t, if t == target then cs ++ text else cs) }
  else { s with written := s.written ++ [(target, text)] }

/-- The memory at the beginning. -/
def start (shell : Machine) (operands : List (List Char)) : Memory :=
  let set := fun (name : String) (v : Value) => (name.toList, { value := v, table := none : Slot })
  { globals :=
      [set "FS" (.text [' ']), set "OFS" (.text [' ']), set "RS" (.text ['\n']),
        set "ORS" (.text ['\n']), set "NR" (.number 0), set "FNR" (.number 0),
        set "SUBSEP" (.text ['\x1c']), set "CONVFMT" (.text ['%', '.', '6', 'g']),
        set "OFMT" (.text ['%', '.', '6', 'g']), set "RSTART" (.number 0),
        set "RLENGTH" (.number (-1)), set "FILENAME" .unset]
    frame := [], tables := #[], record := [], fields := #[], rest := [], isFlowing := false
    operands, isOpened := false, output := [], outputSize := 0, written := [], sources := [],
    ranges := [], status := 0
    shell }

end Memory

end PlanOrbits.Shell.Records
