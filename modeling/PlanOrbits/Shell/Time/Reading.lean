import PlanOrbits.Text.Blank
import PlanOrbits.Shell.Time.Layout

/-!
# Texts as moments

A description of a moment is a sequence of items: a date, a time, a zone, a day of the
week, and steps from there. What is not described is taken from the present moment;
but if a day is described and no time, the time is midnight.
-/

namespace PlanOrbits.Time

/-! ## Words -/

/-- A unit of a step. -/
inductive StepUnit where
  | months (count : Int)
  | days (count : Int)
  | seconds (count : Int)
  deriving DecidableEq, Repr

/-- What a word means. -/
inductive Word where
  | month (number : Int)
  | weekday (number : Nat)
  | unit (u : StepUnit)
  /-- So many days from the present one. -/
  | shift (days : Int)
  | ordinal (n : Int)
  | zone (seconds : Int)
  | afternoon (isAfternoon : Bool)
  | ago
  | hence
  /-- The letter between a date and a time. -/
  | joint
  deriving DecidableEq, Repr

namespace Word

/-- The words for units. -/
def units : List (String × StepUnit) :=
  [("year", .months 12), ("month", .months 1), ("fortnight", .days 14), ("week", .days 7),
    ("day", .days 1), ("hour", .seconds 3600), ("minute", .seconds 60), ("min", .seconds 60),
    ("second", .seconds 1), ("sec", .seconds 1)]

/-- The other words, but for names. -/
def others : List (String × Word) :=
  [("tomorrow", .shift 1), ("yesterday", .shift (-1)), ("today", .shift 0), ("now", .shift 0),
    ("last", .ordinal (-1)), ("this", .ordinal 0), ("next", .ordinal 1), ("first", .ordinal 1),
    ("third", .ordinal 3), ("fourth", .ordinal 4), ("fifth", .ordinal 5), ("sixth", .ordinal 6),
    ("seventh", .ordinal 7), ("eighth", .ordinal 8), ("ninth", .ordinal 9),
    ("tenth", .ordinal 10), ("eleventh", .ordinal 11), ("twelfth", .ordinal 12),
    ("ago", .ago), ("hence", .hence), ("am", .afternoon false), ("a.m.", .afternoon false),
    ("pm", .afternoon true), ("p.m.", .afternoon true), ("t", .joint),
    ("sept", .month 9), ("tues", .weekday 2), ("wednes", .weekday 3), ("thur", .weekday 4),
    ("thurs", .weekday 4)]

/-- The zones with their hours. -/
def zones : List (String × Int) :=
  [("gmt", 0), ("ut", 0), ("utc", 0), ("z", 0), ("wet", 0), ("bst", 1), ("est", -5), ("edt", -4),
    ("cst", -6), ("cdt", -5), ("mst", -7), ("mdt", -6), ("pst", -8), ("pdt", -7), ("hst", -10),
    ("cet", 1), ("cest", 2), ("met", 1), ("mest", 2), ("eet", 2), ("eest", 3), ("msk", 3),
    ("jst", 9), ("nzst", 12), ("nzdt", 13)]

/-- The place of a name among names, of which three letters are enough. -/
def place? (names : List String) (word : List Char) : Option Nat :=
  names.findIdx? fun name =>
    let name := name.toList.map Char.toLower
    word == name || word == name.take 3

/-- What a word in lower case means. A unit may have an `s` behind it. -/
def ofChars? (cs : List Char) : Option Word :=
  let text := String.ofList cs
  let bare := cs.filter (· != '.')
  let unit? := fun (cs : List Char) => units.lookup (String.ofList cs)
  let single? := if cs.getLast? == some 's' then unit? cs.dropLast else none
  (others.lookup text).or <|
  ((place? monthNames bare).map fun n => .month (n + 1)).or <|
  ((place? weekdayNames bare).map .weekday).or <|
  ((zones.lookup (String.ofList bare)).map fun hours => .zone (hours * 3600)).or <|
  ((unit? cs).or single?).map .unit

end Word

/-! ## Tokens -/

/-- A token of a description. -/
inductive Token where
  /-- A number, with the sign in front of it and the digits behind a point. -/
  | number (sign : Option Bool) (digits : List Char) (fraction : List Char)
  | word (w : Word)
  | mark (c : Char)
  deriving DecidableEq, Repr

namespace Token

/-- The characters behind a comment in parentheses. -/
def skipComment : (depth : Nat) → List Char → List Char
  | _, [] => []
  | 0, cs => cs
  | depth + 1, c :: cs =>
      skipComment (if c == '(' then depth + 2 else if c == ')' then depth else depth + 1) cs

/-- The tokens of a description, unless there is a word without meaning. -/
def ofChars? : Nat → List Char → Option (List Token)
  | 0, _ => none
  | _, [] => some []
  | fuel + 1, c :: cs =>
      if Text.isBlank c then ofChars? fuel cs
      else if c == '(' then ofChars? fuel (skipComment 1 cs)
      else if c == '-' || c == '+' then
        let rest := cs.dropWhile Text.isBlank
        if rest.head?.any Text.isDigit then number? fuel (some (c == '-')) rest
        else ofChars? fuel rest
      else if Text.isDigit c then number? fuel none (c :: cs)
      else if c.isAlpha then
        let text := (c :: cs).takeWhile fun c => c.isAlpha || c == '.'
        do
          let w ← Word.ofChars? (text.map Char.toLower)
          return .word w :: (← ofChars? fuel ((c :: cs).drop text.length))
      else do return .mark c :: (← ofChars? fuel cs)
where
  /-- Read a number and the tokens behind it. -/
  number? (fuel : Nat) (sign : Option Bool) (cs : List Char) : Option (List Token) :=
    let digits := cs.takeWhile Text.isDigit
    match cs.drop digits.length with
    | point :: d :: rest =>
        if (point == '.' || point == ',') && Text.isDigit d then
          let fraction := (d :: rest).takeWhile Text.isDigit
          do return .number sign digits fraction ::
            (← ofChars? fuel ((d :: rest).drop fraction.length))
        else do return .number sign digits [] :: (← ofChars? fuel (point :: d :: rest))
    | rest => do return .number sign digits [] :: (← ofChars? fuel rest)

end Token

/-! ## Items -/

/-- An item of a description. -/
inductive Item where
  /-- A date; the year may be left out. -/
  | date (year : Option Int) (month day : Int)
  | time (hour minute second nanos : Nat)
  /-- The seconds by which the clock of a zone is ahead. -/
  | zone (seconds : Int)
  /-- A day of the week, and which of them. -/
  | weekday (ordinal : Int) (number : Nat)
  | step (count : Int) (u : StepUnit)
  /-- So many seconds from the beginning of all days. -/
  | stamp (seconds : Int) (nanos : Nat)
  /-- A number alone. -/
  | number (digits : List Char)
  deriving DecidableEq, Repr

namespace Item

/-- The number that digits denote. -/
def value (digits : List Char) : Nat := ((Text.digits? digits).map Text.number).getD 0

/-- The nanoseconds of the digits behind a point. -/
def nanosOf (fraction : List Char) : Nat :=
  value ((fraction ++ List.replicate 9 '0').take 9)

/-- The year that digits denote; two digits are one of the years around the present. -/
def year (digits : List Char) : Int :=
  let n := value digits
  if digits.length = 2 then (if n < 69 then n + 2000 else n + 1900 : Nat) else n

/-- The seconds of a zone that is written as hours, or hours and minutes. -/
def zoneSeconds (isBehind : Bool) (digits : List Char) (minutes : Option (List Char)) : Int :=
  let n := value digits
  let seconds : Nat :=
    match minutes with
    | some minutes => n * 3600 + value minutes * 60
    | none => if digits.length ≤ 2 then n * 3600 else n / 100 * 3600 + n % 100 * 60
  if isBehind then -seconds else seconds

/-- An item at the front of tokens, and the tokens behind it. -/
abbrev Reading := Option (List Item × List Token)

/-- A zone that is not more than a day away. -/
def zone? (seconds : Int) : Option Item :=
  if seconds.natAbs ≤ 86400 then some (.zone seconds) else none

/-- The zone behind a time, if there is one. -/
def withZone (item : Item) : List Token → Reading
  | .number (some isBehind) h [] :: .mark ':' :: .number none m [] :: rest => do
      return ([item, ← zone? (zoneSeconds isBehind h (some m))], rest)
  | .number (some isBehind) h [] :: rest => do
      return ([item, ← zone? (zoneSeconds isBehind h none)], rest)
  | rest => some ([item], rest)

/-- The hour on a clock with twelve hours. -/
def hourOf? (isAfternoon : Bool) (hour : Nat) : Option Nat :=
  if hour = 0 ∨ 12 < hour then none else some (hour % 12 + if isAfternoon then 12 else 0)

/-- A time whose hour was read: what follows is the half of the day, or a zone. -/
def timeOf (hour minute second nanos : Nat) : List Token → Reading
  | .word (.afternoon isAfternoon) :: rest => do
      let hour ← hourOf? isAfternoon hour
      return ([.time hour minute second nanos], rest)
  | rest => withZone (.time hour minute second nanos) rest

/-- A step, back in time if that is said behind it. -/
def stepOf (count : Int) (u : StepUnit) : List Token → Reading
  | .word .ago :: rest => some ([.step (-count) u], rest)
  | .word .hence :: rest => some ([.step count u], rest)
  | rest => some ([.step count u], rest)

/-- What begins with a number without a sign. -/
def ofNumber (digits fraction : List Char) : List Token → Reading
  | .mark ':' :: .number none m [] :: .mark ':' :: .number none s f :: rest =>
      timeOf (value digits) (value m) (value s) (nanosOf f) rest
  | .mark ':' :: .number none m [] :: rest => timeOf (value digits) (value m) 0 0 rest
  | .word (.afternoon isAfternoon) :: rest => do
      return ([.time (← hourOf? isAfternoon (value digits)) 0 0 0], rest)
  | .mark '/' :: .number none b [] :: .mark '/' :: .number none c [] :: rest =>
      if 4 ≤ digits.length then some ([.date (some (value digits)) (value b) (value c)], rest)
      else some ([.date (some (year c)) (value digits) (value b)], rest)
  | .mark '/' :: .number none b [] :: rest =>
      some ([.date none (value digits) (value b)], rest)
  | .number (some true) m [] :: .number (some true) d [] :: rest =>
      let rest :=
        match rest with
        | .word .joint :: .number none h f :: rest => .number none h f :: rest
        | rest => rest
      some ([.date (some (year digits)) (value m) (value d)], rest)
  | .word (.month m) :: .number (some true) y [] :: rest =>
      some ([.date (some (year y)) m (value digits)], rest)
  | .word (.month m) :: .number none y [] :: .mark ':' :: rest =>
      some ([.date none m (value digits)], .number none y [] :: .mark ':' :: rest)
  | .word (.month m) :: .number none y [] :: rest =>
      some ([.date (some (year y)) m (value digits)], rest)
  | .word (.month m) :: rest => some ([.date none m (value digits)], rest)
  | .word (.unit u) :: rest => stepOf (value digits) u rest
  | .word (.weekday w) :: rest => some ([.weekday (value digits) w], rest)
  | rest => if fraction.isEmpty then some ([.number digits], rest) else none

/-- The items at the front of tokens. -/
def read : List Token → Reading
  | .mark '@' :: .number sign digits fraction :: rest =>
      let isBefore := sign == some true
      let nanos := nanosOf fraction
      let seconds : Int := value digits
      if isBefore && nanos != 0 then some ([.stamp (-seconds - 1) (1000000000 - nanos)], rest)
      else some ([.stamp (if isBefore then -seconds else seconds) nanos], rest)
  | .number none digits fraction :: rest => ofNumber digits fraction rest
  | .number (some isNegative) digits [] :: .word (.unit u) :: rest =>
      stepOf (if isNegative then -(value digits : Int) else value digits) u rest
  | .word (.month m) :: .number (some true) d [] :: .number (some true) y [] :: rest =>
      some ([.date (some (year y)) m (value d)], rest)
  | .word (.month m) :: .number none d [] :: .mark ',' :: .number none y [] :: rest =>
      some ([.date (some (year y)) m (value d)], rest)
  | .word (.month m) :: .number none d [] :: rest => some ([.date none m (value d)], rest)
  | .word (.ordinal n) :: .word (.unit u) :: rest => stepOf n u rest
  | .word (.ordinal n) :: .word (.weekday w) :: rest => some ([.weekday n w], rest)
  | .word (.unit u) :: rest => stepOf 1 u rest
  | .word (.weekday w) :: .mark ',' :: rest => some ([.weekday 0 w], rest)
  | .word (.weekday w) :: rest => some ([.weekday 0 w], rest)
  | .word (.shift days) :: rest => some ([.step days (.days 1)], rest)
  | .word (.zone seconds) :: .number (some isBehind) h [] :: rest =>
      some ([.zone (seconds + zoneSeconds isBehind h none)], rest)
  | .word (.zone seconds) :: rest => some ([.zone seconds], rest)
  | _ => none

/-- All items of tokens. -/
def all? : Nat → List Token → Option (List Item)
  | 0, _ => none
  | _, [] => some []
  | fuel + 1, tokens => do
      let (items, rest) ← read tokens
      return items ++ (← all? fuel rest)

end Item

/-! ## Moments -/

/-- What items describe so far. -/
structure Description where
  year : Option Int
  /-- Month and day. -/
  day : Option (Int × Int)
  /-- Hours, minutes, seconds and nanoseconds. -/
  time : Option (Nat × Nat × Nat × Nat)
  zone : Option Int
  weekday : Option (Int × Nat)
  months : Int
  days : Int
  seconds : Int
  isStepped : Bool

namespace Description

/-- Nothing is described. -/
def empty : Description where
  year := none
  day := none
  time := none
  zone := none
  weekday := none
  months := 0
  days := 0
  seconds := 0
  isStepped := false

/-- The description with one more item, unless there is one of the kind already. -/
def add? (d : Description) : Item → Option Description
  | .date year month day =>
      if d.day.isSome then none
      else some { d with year := year.or d.year, day := some (month, day) }
  | .time hour minute second nanos =>
      if d.time.isSome then none else some { d with time := some (hour, minute, second, nanos) }
  | .zone seconds => if d.zone.isSome then none else some { d with zone := some seconds }
  | .weekday ordinal number =>
      if d.weekday.isSome then none else some { d with weekday := some (ordinal, number) }
  | .step count (.months n) => some { d with months := d.months + count * n, isStepped := true }
  | .step count (.days n) => some { d with days := d.days + count * n, isStepped := true }
  | .step count (.seconds n) => some { d with seconds := d.seconds + count * n, isStepped := true }
  | .stamp _ _ => none
  | .number digits =>
      let n := Item.value digits
      if d.day.isSome && d.year.isNone && !d.isStepped && (d.time.isSome || 2 < digits.length) then
        some { d with year := some (Item.year digits) }
      else if 4 < digits.length then
        if d.day.isSome then none
        else some { d with
          year := some (Item.year (digits.take (digits.length - 4)))
          day := some ((n / 100 % 100 : Nat), (n % 100 : Nat)) }
      else if d.time.isSome then none
      else if digits.length ≤ 2 then some { d with time := some (n, 0, 0, 0) }
      else some { d with time := some (n / 100, n % 100, 0, 0) }

/-- Is there such a day and such a time? A minute may have a leap second. -/
def isValid (date : Date) (time : Nat × Nat × Nat × Nat) : Bool :=
  Date.ofDayNumber date.dayNumber == date && time.1 < 24 && time.2.1 < 60 && time.2.2.1 ≤ 60

/-- The seconds and nanoseconds that are described, seen from the present moment. -/
def resolve? (d : Description) (now : Moment) : Option (Int × Nat) := do
  let date : Date :=
    match d.day with
    | some (month, day) => { year := d.year.getD now.date.year, month, day }
    | none => now.date
  let keepsTime := d.isStepped && d.day.isNone && d.weekday.isNone
  let (hour, minute, second, nanos) := d.time.getD
    (if keepsTime then (now.hour, now.minute, now.second, now.nanos) else (0, 0, 0, 0))
  if !isValid date (hour, minute, second, nanos) then none
  let fromWeekday : Int :=
    match d.weekday, d.day with
    | some (ordinal, number), none =>
        let away : Nat := (number + 7 - date.weekday) % 7
        away + 7 * (ordinal - if 0 < ordinal && away != 0 then 1 else 0)
    | _, _ => 0
  let moved := date.addMonths d.months
  let days := moved.dayNumber + fromWeekday + d.days
  let inDay : Int := (hour * 3600 + minute * 60 + second : Nat)
  return (days * 86400 + inDay - d.zone.getD now.offset + d.seconds, nanos)

end Description

/-- The seconds and nanoseconds of a described moment, seen from the present one. -/
def described? (now : Moment) (text : List Char) : Option (Int × Nat) := do
  let tokens ← Token.ofChars? (text.length + 1) text
  let items ← Item.all? (tokens.length + 1) tokens
  match items with
  | [.stamp seconds nanos] => some (seconds, nanos)
  | _ => (← items.foldlM Description.add? Description.empty).resolve? now

/-- The seconds of a moment that is given by two digits for each part, from the month
to the minute, with the year in front of it or not, and perhaps the seconds behind a
point. -/
def ofDigits? (now : Moment) (text : List Char) : Option Int := do
  let (digits, second) := (Text.cutAt? '.' text).getD (text, ['0', '0'])
  if !digits.all Text.isDigit || second.length != 2 || !second.all Text.isDigit then none
  let year ←
    match digits.length with
    | 8 => some now.date.year
    | 10 => some (Item.year (digits.take 2))
    | 12 => some (Item.value (digits.take 4) : Int)
    | _ => none
  let pair := fun (n : Nat) => Item.value ((digits.drop (digits.length - n)).take 2)
  let date : Date := { year, month := (pair 8 : Nat), day := (pair 6 : Nat) }
  let time := (pair 4, pair 2, Item.value second, 0)
  if !Description.isValid date time then none
  return date.dayNumber * 86400 + (time.1 * 3600 + time.2.1 * 60 + time.2.2.1 : Nat) - now.offset

end PlanOrbits.Time
