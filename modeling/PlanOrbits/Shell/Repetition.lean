import PlanOrbits.Shell.Sorting

/-!
# Equal neighbours

Lines that are equal to the line in front of them, or that agree with it in a part.
Of each run of them one line is shown, or only of those runs that are longer than one
line, or of those that are not; or all lines are shown, in groups.
-/

namespace PlanOrbits.Shell.Repetition

/-- The flags of the filter that joins equal neighbours. -/
def table : FlagTable where
  plain := "cduiDz"
  valued := "fsw"
  long := [("count", 'c'), ("repeated", 'd'), ("unique", 'u'), ("ignore-case", 'i'),
    ("skip-fields", 'f'), ("skip-chars", 's'), ("check-chars", 'w'), ("all-repeated", 'A'),
    ("group", 'G'), ("zero-terminated", 'z')]
  isMixed := true
  optional := "AG"

/-- Where an empty line stands between groups of lines. -/
structure Spacing where
  isBefore : Bool
  isBetween : Bool
  isBehind : Bool

/-- The spacing with a name. -/
def Spacing.ofName? : List Char → Option Spacing
  | ['n', 'o', 'n', 'e'] => some { isBefore := false, isBetween := false, isBehind := false }
  | ['s', 'e', 'p', 'a', 'r', 'a', 't', 'e'] =>
      some { isBefore := false, isBetween := true, isBehind := false }
  | ['p', 'r', 'e', 'p', 'e', 'n', 'd'] =>
      some { isBefore := true, isBetween := true, isBehind := false }
  | ['a', 'p', 'p', 'e', 'n', 'd'] =>
      some { isBefore := false, isBetween := true, isBehind := true }
  | ['b', 'o', 't', 'h'] => some { isBefore := true, isBetween := true, isBehind := true }
  | _ => none

/-- Groups of lines, one behind the other, with empty lines as asked for. -/
def Spacing.arrange (p : Spacing) (groups : List (List (List Char))) : List (List Char) :=
  let blank := fun (isThere : Bool) => if isThere && !groups.isEmpty then [[]] else []
  blank p.isBefore ++
    (if p.isBetween then List.intercalate [[]] groups else groups.flatten) ++ blank p.isBehind

/-- Runs of neighbours that are equal. -/
def runs (key : List Char → List Char) : List (List Char) → List (List (List Char))
  | [] => []
  | line :: lines =>
      match runs key lines with
      | (next :: run) :: rest =>
          if key line == key next then (line :: next :: run) :: rest
          else [line] :: (next :: run) :: rest
      | rest => [line] :: rest

/-- Arguments in which numbers with a sign, the short forms of two flags, have the
letters of these flags. -/
def withLetters (args : List (List Char)) : List (List Char) :=
  args.map fun arg =>
    match arg with
    | sign :: c :: cs =>
        if (c :: cs).all Text.isDigit then
          if sign == '-' then '-' :: 'f' :: c :: cs
          else if sign == '+' then '-' :: 's' :: c :: cs
          else arg
        else arg
    | _ => arg

/-- The flags and operands among arguments, if all flags are known. -/
def flags? (args : List (List Char)) : Option Flags := Flags.ofArgs? table (withLetters args)

/-- The lines of a text without repetitions. -/
def run? (args : List (List Char)) (text : List Char) : Option Filtered := do
  let f ← flags? args
  let fields ← f.number? 'f' 0
  let chars ← f.number? 's' 0
  let width ← if f.has 'w' then (f.number? 'w' 0).map some else some none
  let key := fun (line : List Char) =>
    let cs := (Key.skipFields none fields line).drop chars
    let cs := width.elim cs (cs.take ·)
    if f.has 'i' then cs.map Char.toLower else cs
  let mark := if f.has 'z' then '\x00' else '\n'
  let all := runs key (Line.allEndedBy mark text)
  let spacing? : Option Spacing ←
    match f.value? 'A', f.value? 'G' with
    | some name, _ =>
        ((Spacing.ofName? (if name.isEmpty then "none".toList else name)).filter
          (!·.isBehind)).map some
    | none, some name =>
        ((Spacing.ofName? (if name.isEmpty then "separate".toList else name)).filter
          (·.isBetween)).map some
    | none, none => if f.has 'D' then (Spacing.ofName? "none".toList).map some else some none
  let isGrouping := f.has 'G'
  if isGrouping && (f.has 'c' || f.has 'd' || f.has 'D' || f.has 'u' || f.has 'A') then none
  if f.has 'c' && spacing?.isSome then none
  let lines :=
    match spacing? with
    | some spacing =>
        let groups := if isGrouping then all else all.filter (1 < ·.length)
        spacing.arrange (if f.has 'u' then [] else groups)
    | none =>
        let shown := all.filter fun lines =>
          !(f.has 'd' && lines.length == 1) && !(f.has 'u' && lines.length != 1)
        shown.map fun lines =>
          (if f.has 'c' then Line.padLeft 7 (Text.decimal lines.length) ++ [' '] else []) ++
            lines.headD []
  return (Line.joinEndedBy mark lines, true)

end PlanOrbits.Shell.Repetition
