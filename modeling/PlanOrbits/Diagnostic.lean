import PlanOrbits.Json.Decode
import Std.Data.ExtTreeMap

/-!
# Diagnostics

What a user or a program is told about an error: the family it belongs to, a
stable code, a message, details under names, and sometimes a hint. The causes of
errors are inductive types of their own, beside the operations that raise them;
each has a `diagnostic` function that chooses these words. Here is the form that
all of them share, its text, and its document.
-/

namespace PlanOrbits

open Std (ExtTreeMap)

/-- What kind of operation failed. -/
inductive Family where
  /-- A table or a set of cycles describes no bijection. -/
  | invalidBijection
  /-- Permutations of different domains were combined. -/
  | domainMismatch
  /-- The answer of the automorphism engine makes no sense. -/
  | protocolViolation
  /-- The engine could not be started, fed or drained. -/
  | processFailure
  /-- An operation does not fit the graph. -/
  | graph
  /-- The plan is not well formed. -/
  | plan
  /-- A document, a configuration or a file could not be read or written. -/
  | document
  deriving DecidableEq, Repr

namespace Family

/-- All families. -/
def all : List Family :=
  [invalidBijection, domainMismatch, protocolViolation, processFailure, graph, plan, document]

/-- The label by which programs recognise the family. -/
def label : Family → String
  | invalidBijection => "invalid-bijection"
  | domainMismatch => "domain-mismatch"
  | protocolViolation => "protocol-violation"
  | processFailure => "process-failure"
  | graph => "graph"
  | plan => "plan"
  | document => "serde"

/-- The name of the family in documents. -/
def variant : Family → String
  | invalidBijection => "InvalidBijection"
  | domainMismatch => "DomainMismatch"
  | protocolViolation => "ProtocolViolation"
  | processFailure => "ProcessFailure"
  | graph => "Graph"
  | plan => "Plan"
  | document => "Serde"

/-- The words that begin a message of the family. -/
def title : Family → String
  | invalidBijection => "invalid bijection"
  | domainMismatch => "domain mismatch"
  | protocolViolation => "protocol violation"
  | processFailure => "process failure"
  | graph => "graph error"
  | plan => "plan error"
  | document => "serde error"

/-- The family with a name in documents. -/
def ofVariant? (name : String) : Option Family := all.find? (·.variant == name)

end Family

/-- An error as it is reported. -/
structure Diagnostic where
  family : Family
  code : String
  message : String
  context : ExtTreeMap String String
  hint : Option String

namespace Diagnostic

/-- A diagnostic with details in any order and no hint. Of two details with one
name the later counts. -/
def of (family : Family) (code message : String) (context : List (String × String)) :
    Diagnostic :=
  { family, code, message, context := context.foldl (fun m (k, v) => m.insert k v) ∅,
    hint := none }

/-- The same diagnostic with a hint. -/
def withHint (d : Diagnostic) (hint : String) : Diagnostic := { d with hint := some hint }

/-- The details in braces, in the order of their names. -/
def contextText (d : Diagnostic) : String :=
  match d.context.toList with
  | [] => ""
  | details =>
      " \x7b" ++ ", ".intercalate (details.map fun (k, v) => k ++ ": " ++ v) ++ "\x7d"

/-- The hint behind the message. -/
def hintText (d : Diagnostic) : String :=
  match d.hint with
  | none => ""
  | some hint => "; try: " ++ hint

/-- The text of a diagnostic: family, code, message, details and hint. -/
def text (d : Diagnostic) : String :=
  d.family.title ++ ": [" ++ d.code ++ "] " ++ d.message ++ d.contextText ++ d.hintText

/-! ## Documents -/

/-- The details as an object. -/
def contextJson (d : Diagnostic) : Json :=
  Json.record (d.context.toList.map fun (k, v) => (k, Json.text v))

instance : ToJson Diagnostic where
  toJson d :=
    Json.record [
      ("family", Json.text d.family.variant),
      ("detail", Json.record ([
        ("code", Json.text d.code),
        ("message", Json.text d.message),
        ("context", d.contextJson)] ++
        (d.hint.map fun hint => ("hint", Json.text hint)).toList))]

/-- Names and texts of an object; of two entries with one name the later counts. -/
def contextOfJson? : Json → Option (ExtTreeMap String String)
  | .object entries =>
      entries.foldlM (fun m (name, value) => do
        let text ← (ofJson? value : Option String)
        return m.insert (← name) text) ∅
  | _ => none

/-- The family in a document: its name, alone or as the one name of an object
that holds null. -/
def familyOfJson? : Json → Option Family
  | .string text => text.bind Family.ofVariant?
  | .object [(name, .null)] => name.bind Family.ofVariant?
  | _ => none

/-- The diagnostic of a family with the details in a document. -/
def detailOfJson? (family : Family) (j : Json) : Option Diagnostic := do
  let r ← Record.ofJson? ["code", "message", "context", "hint"] j
  let code ← r.required "code"
  let message ← r.required "message"
  let context ←
    match r.fields.lookup "context" with
    | none => some ∅
    | some value => contextOfJson? value
  let hint ← r.optional "hint"
  return { family, code, message, context, hint }

mutual

/-- Can a document be kept in memory before it is known what it is for? Its
numbers must be finite, its strings denote texts, and it must not nest more than
`levels` deep. -/
def isKeepable (levels : Nat) : Json → Bool
  | .number n => n.toFloat?.isSome
  | .string text => text.isSome
  | .array items => levels != 0 && areItemsKeepable (levels - 1) items
  | .object fields => levels != 0 && areFieldsKeepable (levels - 1) fields
  | _ => true

/-- Can all items of an array be kept? -/
def areItemsKeepable (levels : Nat) : List Json → Bool
  | [] => true
  | item :: items => isKeepable levels item && areItemsKeepable levels items

/-- Can all fields of an object be kept? -/
def areFieldsKeepable (levels : Nat) : List (Option String × Json) → Bool
  | [] => true
  | (name, value) :: fields =>
      name.isSome && isKeepable levels value && areFieldsKeepable levels fields

end

/-- How deep a detail may nest that has to be kept. -/
def keptLevels : Nat := 126

/-- A detail given before the family is kept until the family is known. -/
def isDetailLost : List (String × Json) → Bool
  | ("detail", detail) :: _ => !isKeepable keptLevels detail
  | _ => false

instance : OfJson Diagnostic where
  ofJson? j := do
    let r ← Record.ofJson? ["family", "detail"] j
    if isDetailLost r.fields then none
    else
      let family ← familyOfJson? (← r.fields.lookup "family")
      detailOfJson? family (← r.fields.lookup "detail")

end Diagnostic

end PlanOrbits
