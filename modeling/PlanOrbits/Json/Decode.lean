import PlanOrbits.Json.Float
import PlanOrbits.Json.Parser

/-!
# Values in documents

How the values of a program appear in documents, and how they are read back.

* `ToJson` and `OfJson` are the two directions for one type.
* A **record** is an object with named fields. Its reader ignores names that it
  does not know and refuses a known name that occurs twice. It also takes an
  array of the field values in the order of declaration, from which fields with
  a default may be missing at the end.
-/

namespace PlanOrbits

/-- Values with a document. -/
class ToJson (α : Type) where
  toJson : α → Json

/-- Values that can be read from a document. -/
class OfJson (α : Type) where
  ofJson? : Json → Option α

export ToJson (toJson)
export OfJson (ofJson?)

instance : ToJson Bool := ⟨.bool⟩

instance : OfJson Bool where
  ofJson?
    | .bool b => some b
    | _ => none

instance : ToJson String := ⟨Json.text⟩

instance : OfJson String where
  ofJson?
    | .string text => text
    | _ => none

instance : ToJson Nat := ⟨fun n => .number (Numeral.ofNat n)⟩

/-- Natural numbers are read from the 64-bit range. -/
instance : OfJson Nat where
  ofJson?
    | .number n => n.toNat?.filter (· < Text.wordLimit)
    | _ => none

instance : ToJson UInt64 := ⟨fun n => toJson n.toNat⟩

instance : OfJson UInt64 := ⟨fun j => (ofJson? j : Option Nat).map Nat.toUInt64⟩

instance : ToJson UInt32 := ⟨fun n => toJson n.toNat⟩

instance : OfJson UInt32 where
  ofJson? j := ((ofJson? j : Option Nat).filter (· < UInt32.size)).map Nat.toUInt32

instance : ToJson Float := ⟨Json.float⟩

instance : OfJson Float where
  ofJson?
    | .number n => n.toFloat?
    | _ => none

instance {α : Type} [ToJson α] : ToJson (List α) := ⟨fun xs => .array (xs.map toJson)⟩

instance {α : Type} [OfJson α] : OfJson (List α) where
  ofJson?
    | .array items => items.mapM ofJson?
    | _ => none

instance {α β : Type} [ToJson α] [ToJson β] : ToJson (α × β) :=
  ⟨fun (a, b) => .array [toJson a, toJson b]⟩

/-- A pair is an array of exactly two values. -/
instance {α β : Type} [OfJson α] [OfJson β] : OfJson (α × β) where
  ofJson?
    | .array [a, b] => do return (← ofJson? a, ← ofJson? b)
    | _ => none

/-- A value that may be absent; null stands for its absence. -/
instance {α : Type} [OfJson α] : OfJson (Option α) where
  ofJson?
    | .null => some none
    | j => (ofJson? j).map some

instance {α : Type} [ToJson α] : ToJson (Option α) where
  toJson
    | none => .null
    | some a => toJson a

/-! ## Records -/

/-- The fields found in the document of a record. -/
structure Record where
  /-- Was the record given as an array? -/
  positional : Bool
  fields : List (String × Json)

namespace Record

/-- The fields of an object with their names, or `none` if a name denotes no text. -/
def namedFields? (fields : List (Option String × Json)) : Option (List (String × Json)) :=
  fields.mapM fun (name, value) => name.map (·, value)

/-- The document as a record with the given field names. -/
def ofJson? (names : List String) : Json → Option Record
  | .array items =>
      if items.length ≤ names.length then
        some { positional := true, fields := names.zip items }
      else none
  | .object entries => do
      let fields := (← namedFields? entries).filter fun (name, _) => names.contains name
      if (fields.map Prod.fst).Nodup then some { positional := false, fields } else none
  | _ => none

/-- A field that must be there. -/
def required {α : Type} [OfJson α] (r : Record) (name : String) : Option α :=
  (r.fields.lookup name).bind PlanOrbits.ofJson?

/-- A field with a default. -/
def withDefault {α : Type} [OfJson α] (r : Record) (name : String) (default : α) : Option α :=
  match r.fields.lookup name with
  | none => some default
  | some value => PlanOrbits.ofJson? value

/-- A field that may be left out by name but not by position. -/
def optional {α : Type} [OfJson α] (r : Record) (name : String) : Option (Option α) :=
  match r.fields.lookup name with
  | none => if r.positional then none else some none
  | some value => PlanOrbits.ofJson? value

end Record

/-- Read a whole text as a value. -/
def readJson? (α : Type) [OfJson α] (text : String) : Option α :=
  (Json.parse? text).bind ofJson?

end PlanOrbits
