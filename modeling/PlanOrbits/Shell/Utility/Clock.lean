import PlanOrbits.Shell.Entry
import PlanOrbits.Shell.Utility.Input
import PlanOrbits.Shell.Time.Reading

/-!
# The clock

Moments on the clock of a shell, whose zone is the value of a variable, and the program
that writes them.
-/

namespace PlanOrbits.Shell.Action

variable {m : Type → Type} [Monad m] [Storage m]

/-- The second at which the clock begins. -/
def firstSecond : Int := 1735689600

/-- A zone with a fixed difference: a name, and the hours by which it is behind. -/
def zoneOf (text : List Char) : Int × List Char :=
  let (name, rest) :=
    match text with
    | '<' :: rest => (rest.takeWhile (· != '>'), (rest.dropWhile (· != '>')).drop 1)
    | _ => (text.takeWhile Char.isAlpha, text.dropWhile Char.isAlpha)
  let (isAhead, digits) :=
    match rest with
    | '-' :: digits => (true, digits)
    | '+' :: digits => (false, digits)
    | digits => (false, digits)
  let parts := ((Text.pieces (· == ':') (digits.takeWhile fun c => Text.isDigit c || c == ':')).map
    fun cs => ((Text.digits? cs).map Text.number).getD 0)
  let seconds : Int :=
    (parts.getD 0 0 * 3600 + parts.getD 1 0 * 60 + parts.getD 2 0 : Nat)
  if text.isEmpty || name.isEmpty then (0, "UTC".toList)
  else (if isAhead then seconds else -seconds, name)

/-- The zone of the clock. -/
def zone : Action m (Int × List Char) := return zoneOf ((← get).value "TZ".toList)

/-- The moment at a time in milliseconds from the beginning. -/
def momentAt (zone : Int × List Char) (time : Int) : Time.Moment :=
  .ofSeconds zone.1 zone.2 (firstSecond + time / 1000) ((time % 1000).toNat * 1000000)

/-- The present moment. -/
def now (zone : Int × List Char) : Action m Time.Moment := return momentAt zone (← get).clock

/-- The time, in milliseconds from the beginning, of a moment. -/
def timeOf (seconds : Int) (nanos : Nat) : Int := (seconds - firstSecond) * 1000 + nanos / 1000000

/-- The layout for a standard form, which shows as much as is asked for. -/
def standardLayout? (joint : String) (wanted : List Char) : Option String :=
  match String.ofList wanted with
  | "" | "date" => some "%Y-%m-%d"
  | "hours" => some ("%Y-%m-%d" ++ joint ++ "%H%:z")
  | "minutes" => some ("%Y-%m-%d" ++ joint ++ "%H:%M%:z")
  | "seconds" => some ("%Y-%m-%d" ++ joint ++ "%H:%M:%S%:z")
  | "ns" =>
      some ("%Y-%m-%d" ++ joint ++ "%H:%M:%S" ++ (if joint == "T" then "," else ".") ++ "%N%:z")
  | _ => none

/-- The flags of the program that writes moments. -/
def dateTable : FlagTable where
  plain := "uR"
  valued := "dfrsP"
  optional := "I"
  long := [("utc", 'u'), ("universal", 'u'), ("uct", 'u'), ("date", 'd'), ("file", 'f'),
    ("reference", 'r'), ("set", 's'), ("rfc-email", 'R'), ("rfc-822", 'R'), ("rfc-2822", 'R'),
    ("iso-8601", 'I'), ("rfc-3339", 'P'), ("debug", 'D')]
  isMixed := true

/-- The layout that arguments ask for. -/
def dateLayout? (f : Flags) : Option (List Char) :=
  match f.operands with
  | ('+' :: layout) :: [] => some layout
  | [] =>
      let wanted :=
        if f.has 'R' then some "%a, %d %b %Y %H:%M:%S %z"
        else if f.has 'I' then standardLayout? "T" ((f.value? 'I').getD [])
        else if f.has 'P' then standardLayout? " " ((f.value? 'P').getD [])
        else some "%a %b %e %H:%M:%S %Z %Y"
      wanted.map String.toList
  | _ => none

/-- Write moments: the present one, the described ones, or that of the last change of a
file. -/
def writeDate (args : List (List Char)) : Action m Unit := do
  match (Flags.ofArgs? dateTable args).bind fun f => (dateLayout? f).map (f, ·) with
  | none => finish 1
  | some (f, layout) =>
      let zone ← if f.has 'u' then pure (0, "UTC".toList) else zone
      let now ← now zone
      let write := fun (t : Option (Int × Nat)) (text : List Char) => do
        match t with
        | some (seconds, nanos) =>
            say (Line.ended ((Time.Moment.ofSeconds zone.1 zone.2 seconds nanos).text layout))
            return true
        | none =>
            report "date" ("invalid date '" ++ shown text ++ "'")
            return false
      match f.value? 'd', f.value? 'f', f.value? 'r' with
      | some text, _, _ => succeed (← write (Time.described? now text) text)
      | none, some path, _ =>
          match ← operandText? "date" path with
          | none => finish 1
          | some lines =>
              let results ← (Line.all lines).mapM fun line => write (Time.described? now line) line
              succeed (results.all (·))
      | none, none, some path =>
          match ← entry? true path with
          | none =>
              report "date" (shown path ++ ": No such file or directory")
              finish 1
          | some e =>
              let t := momentAt zone e.time
              succeed (← write (some (t.seconds, t.nanos)) [])
      | none, none, none => succeed (← write (some (now.seconds, now.nanos)) [])

end PlanOrbits.Shell.Action
