import PlanOrbits.Text.Digits
import PlanOrbits.Shell.Time.Calendar

/-!
# Moments as texts

A layout is a text in which a percent sign and a letter stand for a part of a moment.
Between the two there may be a flag for the padding or for the case, a width, and
colons for the zone.
-/

namespace PlanOrbits.Time

/-- The names of the days of the week, from Sunday on. -/
def weekdayNames : List String :=
  ["Sunday", "Monday", "Tuesday", "Wednesday", "Thursday", "Friday", "Saturday"]

/-- The names of the months. -/
def monthNames : List String :=
  ["January", "February", "March", "April", "May", "June", "July", "August", "September",
    "October", "November", "December"]

/-- What stands between the percent sign and the letter. -/
structure PartStyle where
  /-- The flag for the padding: a dash for none, an underscore for blanks, or a zero. -/
  padding : Option Char
  isUpper : Bool
  /-- Is the other case wanted? -/
  isSwapped : Bool
  width : Option Nat
  colons : Nat

namespace PartStyle

/-- Nothing stands there. -/
def plain : PartStyle :=
  { padding := none, isUpper := false, isSwapped := false, width := none, colons := 0 }

variable (s : PartStyle)

/-- Fill a text up at the left, unless the flag forbids it. -/
def fill (usual : Char) (width : Nat) (cs : List Char) : List Char :=
  let pad :=
    match s.padding with
    | some '-' => none
    | some '_' => some ' '
    | some _ => some '0'
    | none => some usual
  pad.elim cs fun c => List.replicate (s.width.getD width - cs.length) c ++ cs

/-- A number with so many digits; a blank or a zero stands for those that it lacks. -/
def number (usual : Char) (digits : Nat) (n : Int) : List Char :=
  if n < 0 then '-' :: s.fill usual (digits - 1) (Text.decimal n.natAbs)
  else s.fill usual digits (Text.decimal n.toNat)

/-- A word in the case that the flags ask for; `swapped` is that of the other case. -/
def word (swapped : Char → Char) (cs : List Char) : List Char :=
  let cs :=
    if s.isUpper then cs.map Char.toUpper else if s.isSwapped then cs.map swapped else cs
  match s.padding with
  | some '-' => cs
  | some '0' => s.fill '0' 0 cs
  | _ => s.fill ' ' 0 cs

end PartStyle

/-- The difference of a clock to that of the world, with so many colons in it. -/
def offsetText (colons : Nat) (offset : Int) : List Char :=
  let pair := fun (n : Nat) => PartStyle.plain.number '0' 2 n
  let n := offset.natAbs
  let (hours, minutes, seconds) := (pair (n / 3600), pair (n / 60 % 60), pair (n % 60))
  let size := (if offset < 0 then '-' else '+') :: hours
  match colons with
  | 0 => size ++ minutes
  | 1 => size ++ ':' :: minutes
  | 2 => size ++ ':' :: minutes ++ ':' :: seconds
  | _ =>
      if n % 60 != 0 then size ++ ':' :: minutes ++ ':' :: seconds
      else if n % 3600 != 0 then size ++ ':' :: minutes
      else size

/-- The hour of a clock with twelve hours. -/
def hourOfTwelve (hour : Nat) : Nat := if hour % 12 = 0 then 12 else hour % 12

/-- The first digits of a number of nanoseconds. -/
def fractionText (digits nanos : Nat) : List Char :=
  let all := PartStyle.plain.number '0' 9 nanos
  all.take digits ++ List.replicate (digits - 9) '0'

/-- The part of a moment for a letter. -/
def part? (s : PartStyle) (t : Moment) (letter : Char) : Option (List Char) :=
  let (week, days) := (t.date.weekday, t.date.daysBefore)
  let name := fun (names : List String) (n : Nat) => (names.getD n "").toList
  let month := name monthNames (t.date.month.toNat - 1)
  match letter with
  | '%' => some ['%']
  | 'n' => some ['\n']
  | 't' => some ['\t']
  | 'a' => some (s.word Char.toUpper ((name weekdayNames week).take 3))
  | 'A' => some (s.word Char.toUpper (name weekdayNames week))
  | 'b' | 'h' => some (s.word Char.toUpper (month.take 3))
  | 'B' => some (s.word Char.toUpper month)
  | 'C' => some (s.number '0' 2 (t.date.year / 100))
  | 'd' => some (s.number '0' 2 t.date.day)
  | 'e' => some (s.number ' ' 2 t.date.day)
  | 'g' => some (s.number '0' 2 (t.date.thursdayWeek.1 % 100))
  | 'G' => some (s.number '0' 4 t.date.thursdayWeek.1)
  | 'H' => some (s.number '0' 2 t.hour)
  | 'I' => some (s.number '0' 2 (hourOfTwelve t.hour))
  | 'j' => some (s.number '0' 3 (days + 1))
  | 'k' => some (s.number ' ' 2 t.hour)
  | 'l' => some (s.number ' ' 2 (hourOfTwelve t.hour))
  | 'm' => some (s.number '0' 2 t.date.month)
  | 'M' => some (s.number '0' 2 t.minute)
  | 'N' => some (fractionText (s.width.getD 9) t.nanos)
  | 'p' => some (s.word Char.toLower (if t.hour < 12 then ['A', 'M'] else ['P', 'M']))
  | 'P' => some (s.word Char.toUpper (if t.hour < 12 then ['a', 'm'] else ['p', 'm']))
  | 'q' => some (s.number '0' 1 ((t.date.month + 2) / 3))
  | 's' => some (s.number '0' 1 t.seconds)
  | 'S' => some (s.number '0' 2 t.second)
  | 'u' => some (s.number '0' 1 ((week + 6) % 7 + 1 : Nat))
  | 'U' => some (s.number '0' 2 (t.date.week 0))
  | 'V' => some (s.number '0' 2 t.date.thursdayWeek.2)
  | 'w' => some (s.number '0' 1 week)
  | 'W' => some (s.number '0' 2 (t.date.week 1))
  | 'y' => some (s.number '0' 2 (t.date.year % 100))
  | 'Y' => some (s.number '0' 4 t.date.year)
  | 'z' => some (offsetText s.colons t.offset)
  | 'Z' => some (s.word Char.toLower t.zone)
  | _ => none

/-- The layout that a letter stands for. -/
def layout? : Char → Option String
  | 'c' => some "%a %b %e %H:%M:%S %Y"
  | 'D' | 'x' => some "%m/%d/%y"
  | 'F' => some "%Y-%m-%d"
  | 'r' => some "%I:%M:%S %p"
  | 'R' => some "%H:%M"
  | 'T' | 'X' => some "%H:%M:%S"
  | _ => none

/-- Read what stands between the percent sign and the letter. -/
def readStyle (cs : List Char) : PartStyle × List Char :=
  let flags := cs.takeWhile ['-', '_', '0', '^', '#', '+'].contains
  let rest := cs.drop flags.length
  let digits := rest.takeWhile Text.isDigit
  let rest := rest.drop digits.length
  let colons := rest.takeWhile (· == ':')
  let rest := rest.drop colons.length
  let rest := if rest.head?.any ['E', 'O'].contains then rest.tail else rest
  ({ padding := (flags.filter ['-', '_', '0', '+'].contains).getLast?
     isUpper := flags.contains '^', isSwapped := flags.contains '#'
     width := (Text.digits? digits).map Text.number
     colons := colons.length }, rest)

/-- A moment in a layout; `partOf?` gives the text for a letter. -/
def layOut (partOf? : PartStyle → Char → Option (List Char)) : Nat → List Char → List Char
  | 0, _ | _, [] => []
  | fuel + 1, '%' :: cs =>
      match readStyle cs with
      | (style, letter :: rest) =>
          let text := (partOf? style letter).getD
            ('%' :: cs.take (cs.length - rest.length))
          text ++ layOut partOf? fuel rest
      | (_, []) => '%' :: cs
  | fuel + 1, c :: cs => c :: layOut partOf? fuel cs

/-- A moment in a layout. -/
def Moment.text (layout : List Char) (t : Moment) : List Char :=
  layOut (fun style letter =>
    match layout? letter with
    | some inner =>
        let inner := inner.toList
        some (style.word id (layOut (fun style letter => part? style t letter)
          (inner.length + 1) inner))
    | none => part? style t letter) (layout.length + 1) layout

end PlanOrbits.Time
