import ConfigTables.Number.Binary

/-!
    The shortest decimal that names a floating-point number: the fewest digits that lie closer to it
    than to any other number of its format, and of those the nearest, or the one with an even last
    digit of two. All of it is exact arithmetic on natural numbers; the number and the ends of the
    interval that rounds to it are written over one denominator. -/

namespace ConfigTables.Number

/-- The numbers around a value that round to it, as numerators over one denominator. -/
structure Interval where
  low : Nat
  value : Nat
  high : Nat
  denominator : Nat
  /-- Whether the ends belong to it. -/
  closed : Bool

/-- What rounds to a finite number. Below a power of two the neighbour is half as far, and a tie
goes to the even mantissa. -/
def Finite.interval {f : Format} (x : Finite f) : Interval :=
  let unit := Nat.pow 2 x.index
  let below := if x.mantissa = Nat.pow 2 (f.precision - 1) ∧ 0 < x.index then 1 else 2
  { low := (4 * x.mantissa - below) * unit
    value := 4 * x.mantissa * unit
    high := (4 * x.mantissa + 2) * unit
    denominator := 4 * Nat.pow 2 f.shift
    closed := x.mantissa % 2 = 0 }

/-- The exponent of the first decimal digit of `num / den`, for `num` above zero. -/
def leadingExponent (num den : Nat) : Int :=
  if den ≤ num then (digitCount (num / den) : Int) - 1
  else
    let places := digitCount (den / num)
    if den ≤ num * Nat.pow 10 (places - 1) then 1 - (places : Int) else -(places : Int)

/-- The multiple of `10 ^ exponent` that is nearest to the value of those in the interval, the even
one of two. -/
def Interval.nearest? (i : Interval) (exponent : Int) : Option Nat :=
  let up := Nat.pow 10 (-exponent).toNat
  let step := i.denominator * Nat.pow 10 exponent.toNat
  let value := i.value * up
  let q := value / step
  let belongs (n : Nat) : Bool :=
    if i.closed then i.low * up ≤ n * step && n * step ≤ i.high * up
    else i.low * up < n * step && n * step < i.high * up
  match belongs q, belongs (q + 1) with
  | true, true => some (roundHalfEven value step)
  | true, false => some q
  | false, true => some (q + 1)
  | false, false => none

/-- A decimal `digits * 10 ^ exponent`. -/
structure Decimal where
  digits : Nat
  exponent : Int
  deriving DecidableEq

/-- A decimal without zeros at the end of its digits, looking at no more than `limit` of them. -/
def Decimal.stripZeros : Nat → Decimal → Decimal
  | 0, d => d
  | limit + 1, d =>
    if d.digits ≠ 0 && d.digits % 10 = 0 then stripZeros limit ⟨d.digits / 10, d.exponent + 1⟩ else d

/-- The most digits that a number of the format may need. -/
def Format.digitLimit (f : Format) : Nat := f.precision * 30103 / 100000 + 2

/-- The shortest decimal that rounds to a number. -/
def Finite.shortest {f : Format} (x : Finite f) : Decimal :=
  if x.mantissa = 0 then ⟨0, 0⟩
  else
    let i := x.interval
    let first := leadingExponent i.value i.denominator
    let found := (List.range f.digitLimit).findSome? fun (more : Nat) =>
      (i.nearest? (first - more)).map fun n => Decimal.mk n (first - more)
    (found.getD ⟨0, 0⟩).stripZeros (f.digitLimit + 1)

/-- How a decimal is laid out: the exponents of the first digit that are written positionally. -/
structure Layout where
  plainFrom : Int
  plainTo : Int

/-- A decimal as text. Positional notation always has a fraction; scientific notation always has a
sign on its exponent and a fraction only when there is a second digit. -/
def Layout.write (l : Layout) (negative : Bool) (d : Decimal) : String :=
  let digits := (toString d.digits).toList
  let lead := d.exponent + digits.length - 1
  let sign := if negative then "-" else ""
  if l.plainFrom ≤ lead && lead ≤ l.plainTo then
    if lead < 0 then
      sign ++ "0." ++ String.ofList (List.replicate (-lead - 1).toNat '0' ++ digits)
    else
      let whole := digits.take (lead.toNat + 1)
      let fraction := digits.drop (lead.toNat + 1)
      let padding := List.replicate (lead.toNat + 1 - digits.length) '0'
      sign ++ String.ofList (whole ++ padding) ++ "." ++
        (if fraction.isEmpty then "0" else String.ofList fraction)
  else
    let fraction := digits.drop 1
    sign ++ String.ofList (digits.take 1) ++
      (if fraction.isEmpty then "" else "." ++ String.ofList fraction) ++
      "e" ++ (if lead < 0 then "-" else "+") ++ toString lead.natAbs

end ConfigTables.Number
