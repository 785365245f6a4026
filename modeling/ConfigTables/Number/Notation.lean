import ConfigTables.Number.Binary

/-!
    Numbers as people type them: integers with an optional sign, and decimals with an optional
    fraction and exponent or one of the names of what is not finite. Only ASCII digits count, and
    nothing may stand before or after the number. -/

namespace ConfigTables.Number

/-- The value of a row of ASCII digits. -/
def digitsValue (digits : List Char) : Nat :=
  digits.foldl (fun n c => 10 * n + (c.toNat - '0'.toNat)) 0

/-- The value of a hexadecimal digit. -/
def hexValue? (c : Char) : Option Nat :=
  if c.isDigit then some (c.toNat - '0'.toNat)
  else if 'a' ≤ c && c ≤ 'f' then some (c.toNat - 'a'.toNat + 10)
  else if 'A' ≤ c && c ≤ 'F' then some (c.toNat - 'A'.toNat + 10)
  else none

/-- The value of a row of hexadecimal digits. -/
def hexNumber? (digits : List Char) : Option Nat :=
  digits.foldlM (fun n c => (hexValue? c).map (16 * n + ·)) 0

/-- Takes a sign off the front of a text; `true` for minus. -/
def takeSign : List Char → Bool × List Char
  | '-' :: rest => (true, rest)
  | '+' :: rest => (false, rest)
  | rest => (false, rest)

/-- A natural number with its sign. -/
def signed (negative : Bool) (n : Nat) : Int := if negative then -n else n

/-- Reads an integer. -/
def readInt? (text : List Char) : Option Int :=
  let (negative, digits) := takeSign text
  if digits ≠ [] && digits.all Char.isDigit then some (signed negative (digitsValue digits))
  else none

/-- The exponent after a mantissa: nothing, or `e` and an integer. -/
def readExponent? : List Char → Option Int
  | [] => some 0
  | c :: rest => if c = 'e' || c = 'E' then readInt? rest else none

/-- Reads a decimal without a sign: digits around an optional point, at least one of them, and an
optional exponent. The result is the digits without the point, and the power of ten they count. -/
def readDecimal? (text : List Char) : Option (Nat × Int) :=
  let whole := text.takeWhile Char.isDigit
  let rest := text.dropWhile Char.isDigit
  let (fraction, rest) := match rest with
    | '.' :: rest => (rest.takeWhile Char.isDigit, rest.dropWhile Char.isDigit)
    | rest => ([], rest)
  if whole = [] && fraction = [] then none
  else (readExponent? rest).map fun e => (digitsValue (whole ++ fraction), e - fraction.length)

/-- Reads a number of a format, rounded to the nearest. -/
def readBinary? (f : Format) (text : List Char) : Option (Binary f) :=
  let (negative, rest) := takeSign text
  let name := String.ofList (rest.map Char.toLower)
  if name = "inf" || name = "infinity" then some (.infinite negative)
  else if name = "nan" then some .nan
  else (readDecimal? rest).map fun (digits, exponent) => .ofDecimal f negative digits exponent

/-- Whether an integer is one of 64 bits with sign. -/
def fitsInt64 (i : Int) : Bool := Int64.minValue.toInt ≤ i && i ≤ Int64.maxValue.toInt

/-- Whether an integer is one of 32 bits with sign. -/
def fitsInt32 (i : Int) : Bool := Int32.minValue.toInt ≤ i && i ≤ Int32.maxValue.toInt

end ConfigTables.Number
