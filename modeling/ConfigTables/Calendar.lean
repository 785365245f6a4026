/-!
    The Gregorian calendar, extended without limit in both directions, and the seconds since the
    start of 1970. Days are counted in years that begin in March, so that the leap day is the last
    day of its year; an era of 400 such years always has 146097 days. -/

namespace ConfigTables

/-- A day of the calendar. -/
structure Day where
  year : Int
  month : Nat
  day : Nat
  deriving DecidableEq, Repr

namespace Day

/-- Whether a year has a 29th of February. -/
def isLeap (year : Int) : Bool := year % 4 = 0 && (year % 100 ≠ 0 || year % 400 = 0)

/-- The number of days of a month. -/
def monthLength (year : Int) (month : Nat) : Nat :=
  if month = 2 then if isLeap year then 29 else 28
  else if month = 4 || month = 6 || month = 9 || month = 11 then 30
  else 31

/-- Whether the calendar has the day. -/
def isValid (d : Day) : Bool :=
  1 ≤ d.month && d.month ≤ 12 && 1 ≤ d.day && d.day ≤ monthLength d.year d.month

/-- The days from the start of 1970 to a day. -/
def toNumber (d : Day) : Int :=
  let year := if d.month ≤ 2 then d.year - 1 else d.year
  let month := if d.month ≤ 2 then d.month + 9 else d.month - 3
  let era := year.fdiv 400
  let ofEra := (year - era * 400).toNat
  let ofYear := (153 * month + 2) / 5 + d.day - 1
  era * 146097 + (ofEra * 365 + ofEra / 4 - ofEra / 100 + ofYear : Nat) - 719468

/-- The day that is so many days from the start of 1970. -/
def ofNumber (n : Int) : Day :=
  let shifted := n + 719468
  let era := shifted.fdiv 146097
  let ofEra := (shifted - era * 146097).toNat
  let yearOfEra := (ofEra - ofEra / 1460 + ofEra / 36524 - ofEra / 146096) / 365
  let ofYear := ofEra - (365 * yearOfEra + yearOfEra / 4 - yearOfEra / 100)
  let march := (5 * ofYear + 2) / 153
  let month := if march < 10 then march + 3 else march - 9
  let year : Int := yearOfEra + era * 400
  ⟨if month ≤ 2 then year + 1 else year, month, ofYear - (153 * march + 2) / 5 + 1⟩

end Day

/-- A second of a day. -/
structure Moment where
  day : Day
  hour : Nat
  minute : Nat
  second : Nat
  deriving DecidableEq, Repr

namespace Moment

/-- The seconds from the start of 1970 to a moment. -/
def toSeconds (m : Moment) : Int :=
  m.day.toNumber * 86400 + (m.hour * 3600 + m.minute * 60 + m.second : Nat)

/-- The moment that is so many seconds from the start of 1970. -/
def ofSeconds (n : Int) : Moment :=
  let ofDay := (n - n.fdiv 86400 * 86400).toNat
  ⟨.ofNumber (n.fdiv 86400), ofDay / 3600, ofDay / 60 % 60, ofDay % 60⟩

end Moment

end ConfigTables
