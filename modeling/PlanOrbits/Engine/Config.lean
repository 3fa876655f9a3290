import PlanOrbits.Error
import PlanOrbits.Yaml.Node

/-!
# Configuration of the engine

Which program computes the automorphisms, with which arguments, and for how long
it may run. A configuration is read from a document of its own format, in which
every setting may be missing.

How a value is understood depends on the setting: a text keeps its characters
whatever they look like, a switch has six spellings, a number may be written to
several bases.
-/

namespace PlanOrbits

open Yaml (Node Scalar)

/-- The settings of an engine. -/
structure EngineConfig where
  /-- The program, which is looked up if it is no path. -/
  program : String
  args : List String
  /-- Are the lines of the engine repeated in the log? -/
  verbose : Bool
  /-- The time after which the engine is stopped, if there is any. -/
  timeoutMilliseconds : Option Nat
  deriving DecidableEq, Repr

namespace EngineConfig

/-- What holds where nothing else is set. -/
def standard : EngineConfig :=
  { program := "dreadnaut", args := [], verbose := false, timeoutMilliseconds := none }

/-- The timeout in whole seconds and the nanoseconds beyond them. -/
def timeout (c : EngineConfig) : Option (Nat × Nat) :=
  c.timeoutMilliseconds.map fun ms => (ms / 1000, ms % 1000 * 1000000)

/-! ## Settings -/

/-- The text of a setting. -/
def textOf? : Node → Option String
  | .scalar s => some s.text
  | _ => none

/-- The texts of a setting that holds a list. No value is an empty list. -/
def textsOf? : Node → Option (List String)
  | .list items => items.mapM textOf?
  | .scalar s => if s.isPlain && s.text == "" then some [] else none
  | .map _ => none

/-- A switch. -/
def switchOf? : Node → Option Bool
  | .scalar s =>
      if !s.isPlain then none
      else if ["true", "True", "TRUE"].contains s.text then some true
      else if ["false", "False", "FALSE"].contains s.text then some false
      else none
  | _ => none

/-- The number below `Text.wordLimit` that digits to a base denote; there must be
digits, and nothing else. -/
def numberToBase? (base : Nat) (cs : List Char) : Option Nat := do
  if cs.isEmpty then none
  let digits ← cs.mapM fun c => (Text.hexDigit? c).filter (· < base)
  let n := digits.foldl (base * · + ·) 0
  if n < Text.wordLimit then some n else none

/-- A natural number with an optional plus sign. The letters `x`, `o` and `b`
behind a zero announce the bases sixteen, eight and two; a decimal number of
several digits does not begin with a zero. -/
def natOfPlain? (text : String) : Option Nat :=
  let unsigned :=
    match text.toList with
    | '+' :: cs => cs
    | cs => cs
  match unsigned with
  | '0' :: 'x' :: cs => numberToBase? 16 cs
  | '0' :: 'o' :: cs => numberToBase? 8 cs
  | '0' :: 'b' :: cs => numberToBase? 2 cs
  | '0' :: _ :: _ => none
  | cs => numberToBase? 10 cs

/-- A natural number that may be left out. -/
def limitOf? : Node → Option (Option Nat)
  | .scalar s =>
      if !s.isPlain then none
      else if ["", "~", "null", "Null", "NULL"].contains s.text then some none
      else (natOfPlain? s.text).map some
  | _ => none

/-! ## Documents -/

/-- The entries of a map whose keys are texts. -/
def namedEntries? (entries : List (Node × Node)) : Option (List (String × Node)) :=
  entries.mapM fun (key, value) => (textOf? key).map (·, value)

/-- The names of the settings. -/
def settingNames : List String := ["program", "args", "verbose", "timeout_ms"]

/-- A setting read by `read?`, or its default. -/
def setting? {α : Type} (entries : List (String × Node)) (name : String) (default : α)
    (read? : Node → Option α) : Option α :=
  match entries.lookup name with
  | none => some default
  | some value => read? value

/-- The configuration with the given settings. Each may occur once; names that
are no settings do not count. -/
def ofEntries? (entries : List (String × Node)) : Option EngineConfig := do
  let settings := entries.filter fun (name, _) => settingNames.contains name
  if ¬ (settings.map Prod.fst).Nodup then none
  return {
    program := ← setting? settings "program" standard.program textOf?
    args := ← setting? settings "args" standard.args textsOf?
    verbose := ← setting? settings "verbose" standard.verbose switchOf?
    timeoutMilliseconds :=
      ← setting? settings "timeout_ms" standard.timeoutMilliseconds limitOf? }

/-- The configuration in a document. No value at all is an empty map. -/
def ofNode? : Node → Option EngineConfig
  | .map entries => (namedEntries? entries).bind ofEntries?
  | .scalar s => if s.isPlain && s.text == "" then some standard else none
  | .list _ => none

/-- The configuration in the text of a document. -/
def ofText (text : String) : Except DocumentError EngineConfig :=
  match (Node.ofText? text).bind (·.elim (some standard) ofNode?) with
  | some config => .ok config
  | none => .error .notConfig

instance : OfJson EngineConfig where
  ofJson? j := do
    let r ← Record.ofJson? settingNames j
    return {
      program := ← r.withDefault "program" standard.program
      args := ← r.withDefault "args" standard.args
      verbose := ← r.withDefault "verbose" standard.verbose
      timeoutMilliseconds := ← r.withDefault "timeout_ms" standard.timeoutMilliseconds }

end EngineConfig

end PlanOrbits
