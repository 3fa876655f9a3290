/-!
# The calendar

Days of the Gregorian calendar, counted from the first of January 1970, and the time
of the day. Years begin with March inside of this module, so that the day by which
leap years differ is the last one.
-/

namespace PlanOrbits.Time

/-- A day of the calendar. -/
structure Date where
  year : Int
  /-- From 1 to 12, if it is one of a year. -/
  month : Int
  day : Int
  deriving DecidableEq, Repr

namespace Date

/-- The number of a day, given by the months since March. Four hundred years have
146097 days; the first day that is counted is 719468 days after the first of March of
year zero. -/
def numberFromMarch (year month day : Int) : Int :=
  year / 400 * 146097 + (year % 400 * 365 + year % 400 / 4 - year % 400 / 100) +
    ((153 * month + 2) / 5 + day - 1) - 719468

/-- The number of a day. The day may be outside of its month. -/
def dayNumber (d : Date) : Int :=
  if d.month ≤ 2 then numberFromMarch (d.year - 1) (d.month + 9) d.day
  else numberFromMarch d.year (d.month - 3) d.day

/-- The day that is given by the months since March. -/
def ofMarch (year month day : Int) : Date :=
  if month < 10 then { year, month := month + 3, day }
  else { year := year + 1, month := month - 9, day }

/-- The day with a number in four hundred years. Of four centuries the last one, and
of four years the last one, may be a day longer than the others. -/
def ofDayOfEra (era day : Int) : Date :=
  let century := min (day / 36524) 3
  let dayOfCentury := day - 36524 * century
  let fourth := dayOfCentury % 1461
  let yearOfFour := min (fourth / 365) 3
  let dayOfYear := fourth - 365 * yearOfFour
  let month := (5 * dayOfYear + 2) / 153
  ofMarch (era * 400 + century * 100 + dayOfCentury / 1461 * 4 + yearOfFour) month
    (dayOfYear - (153 * month + 2) / 5 + 1)

/-- The day with a number. -/
def ofDayNumber (n : Int) : Date := ofDayOfEra ((n + 719468) / 146097) ((n + 719468) % 146097)

/-- The day of the week; zero is Sunday. -/
def weekday (d : Date) : Nat := ((d.dayNumber + 4) % 7).toNat

/-- How many days of its year are before a day. -/
def daysBefore (d : Date) : Nat :=
  (d.dayNumber - ({ year := d.year, month := 1, day := 1 } : Date).dayNumber).toNat

/-- The week of the year, if weeks begin at the given day of the week and the first
one holds the first such day. -/
def week (start : Nat) (d : Date) : Nat :=
  (d.daysBefore + 7 - (d.weekday + 7 - start) % 7) / 7

/-- The year and the week, if weeks begin at Monday and the first one holds the first
Thursday. -/
def thursdayWeek (d : Date) : Int × Nat :=
  let thursday := ofDayNumber (d.dayNumber + 3 - ((d.weekday + 6) % 7 : Nat))
  (thursday.year, thursday.daysBefore / 7 + 1)

/-- The month that is so many months away; the day may then be outside of it. -/
def addMonths (d : Date) (months : Int) : Date :=
  let month := d.year * 12 + (d.month - 1) + months
  { d with year := month / 12, month := month % 12 + 1 }

end Date

/-- A time of a day. -/
structure Moment where
  date : Date
  hour : Nat
  minute : Nat
  second : Nat
  nanos : Nat
  /-- The seconds by which the clock is ahead. -/
  offset : Int
  /-- The name of the zone of the clock. -/
  zone : List Char
  deriving DecidableEq, Repr

namespace Moment

/-- The moment at so many seconds, on the clock of a zone. -/
def ofSeconds (offset : Int) (zone : List Char) (seconds : Int) (nanos : Nat) : Moment :=
  let shown := seconds + offset
  let inDay := (shown % 86400).toNat
  { date := Date.ofDayNumber (shown / 86400)
    hour := inDay / 3600, minute := inDay / 60 % 60, second := inDay % 60, nanos, offset, zone }

/-- The seconds of a moment. -/
def seconds (t : Moment) : Int :=
  t.date.dayNumber * 86400 + (t.hour * 3600 + t.minute * 60 + t.second : Nat) - t.offset

end Moment

end PlanOrbits.Time
