import ConfigTables.Calendar
import ConfigTables.Number.Notation
import ConfigTables.Text.Blank

/-!
    Moments as people type them: a day, and a time of day with or without seconds. White space may
    stand before every number, a blank in a notation stands for any white space or none, and all
    other marks have to be there exactly. -/

namespace ConfigTables.Moment

/-- A part of a notation: the year, a number of one or two digits, a mark, or white space. -/
inductive Part where
  | year
  | number
  | mark (c : Char)
  | blank
  deriving DecidableEq

/-- A day, a blank and a time with seconds. -/
def longNotation : List Part :=
  [.year, .mark '-', .number, .mark '-', .number, .blank, .number, .mark ':', .number, .mark ':',
    .number]

/-- A day, the letter T and a time with seconds. -/
def letterNotation : List Part :=
  [.year, .mark '-', .number, .mark '-', .number, .mark 'T', .number, .mark ':', .number, .mark ':',
    .number]

/-- A day, a blank and a time without seconds. -/
def shortNotation : List Part :=
  [.year, .mark '-', .number, .mark '-', .number, .blank, .number, .mark ':', .number]

/-- Takes digits off the front of a text, at least one and no more than `limit`. -/
def takeDigits? (limit : Nat) (cs : List Char) : Option (Nat × List Char) :=
  let digits := (cs.take limit).takeWhile Char.isDigit
  if digits = [] then none else some (Number.digitsValue digits, cs.drop digits.length)

/-- Takes a year off the front of a text: up to four digits, or a sign and any number of them. -/
def takeYear? (cs : List Char) : Option (Int × List Char) :=
  let (negative, rest) := Number.takeSign cs
  let limit := if rest.length < cs.length then rest.length else 4
  (takeDigits? limit rest).map fun (n, rest) => (Number.signed negative n, rest)

/-- The numbers of a text in a notation, with nothing after them. -/
def numbers? : List Part → List Char → Option (List Int)
  | [], cs => if cs = [] then some [] else none
  | .year :: parts, cs => do
    let (n, rest) ← takeYear? (Text.trimStart cs)
    return n :: (← numbers? parts rest)
  | .number :: parts, cs => do
    let (n, rest) ← takeDigits? 2 (Text.trimStart cs)
    return (n : Int) :: (← numbers? parts rest)
  | .mark c :: parts, cs => if cs.head? = some c then numbers? parts cs.tail else none
  | .blank :: parts, cs => numbers? parts (Text.trimStart cs)

/-- The moment with these numbers, if there is one. A leap second counts as the one before it. -/
def ofNumbers? (year month day hour minute second : Int) : Option Moment :=
  let d : Day := ⟨year, month.toNat, day.toNat⟩
  if -262143 ≤ year && year ≤ 262142 && d.isValid && hour < 24 && minute < 60 && second ≤ 60 then
    some ⟨d, hour.toNat, minute.toNat, (min second 59).toNat⟩
  else none

/-- The moment of a text in a notation. -/
def ofNotation? (parts : List Part) (cs : List Char) : Option Moment :=
  match numbers? parts cs with
  | some [y, mo, d, h, mi, s] => ofNumbers? y mo d h mi s
  | some [y, mo, d, h, mi] => ofNumbers? y mo d h mi 0
  | _ => none

/-- The moment of a text in the first notation that fits; blanks around it do not count. -/
def ofText? (text : String) : Option Moment :=
  [longNotation, letterNotation, shortNotation].findSome? (ofNotation? · (Text.trim text.toList))

end ConfigTables.Moment
