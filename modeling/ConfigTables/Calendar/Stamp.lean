import ConfigTables.Calendar

/-!
    Moments as names and as texts: fixed widths, so that the order of the texts is the order of the
    moments from year 0 to 9999. -/

namespace ConfigTables.Moment

/-- A number in at least so many digits. -/
def padded (width n : Nat) : String :=
  String.ofList (List.leftpad width '0' (Nat.toDigits 10 n))

/-- A year in four digits; one outside of them has a sign. -/
def yearText (year : Int) : String :=
  if year < 0 then "-" ++ padded 4 year.natAbs
  else if 9999 < year then "+" ++ padded 4 year.natAbs
  else padded 4 year.natAbs

/-- A day. -/
def dayText (d : Day) : String := yearText d.year ++ "-" ++ padded 2 d.month ++ "-" ++ padded 2 d.day

/-- A time of day, with a mark between its numbers. -/
def timeText (m : Moment) (mark : String) : String :=
  mark.intercalate ([m.hour, m.minute, m.second].map (padded 2))

/-- The fraction of a second in groups of three digits, as many as it needs. -/
def fractionText (nanos : Nat) : String :=
  if nanos = 0 then ""
  else if nanos % 1000000 = 0 then "." ++ padded 3 (nanos / 1000000)
  else if nanos % 1000 = 0 then "." ++ padded 6 (nanos / 1000)
  else "." ++ padded 9 nanos

/-- The moment as a text, in universal time. -/
def text (m : Moment) (nanos : Nat) : String :=
  dayText m.day ++ "T" ++ m.timeText ":" ++ fractionText nanos ++ "+00:00"

/-- The moment as a part of a file name. -/
def stamp (m : Moment) : String := dayText m.day ++ "T" ++ m.timeText "-" ++ "Z"

end ConfigTables.Moment
