/-!
    Binary floating-point numbers as exact values. A finite number of a format is
    `mantissa * 2 ^ index / 2 ^ shift` with a sign; the largest mantissa and the number of indices
    are the format's. Every number has one representation, because below the format's full
    precision only the index zero is used, so equal values are equal terms.

    `Binary.ofRatio` rounds a fraction of natural numbers to the nearest number of a format, a tie
    to the even mantissa. All other conversions go through it. -/

namespace ConfigTables.Number

/-- A floating-point format: bits of the mantissa, places after the binary point at index zero, and
the largest index. -/
structure Format where
  precision : Nat
  shift : Nat
  top : Nat
  deriving DecidableEq

/-- The 64-bit format. -/
def Format.double : Format := ⟨53, 1074, 2045⟩

/-- The 32-bit format. -/
def Format.single : Format := ⟨24, 149, 253⟩

/-- A mantissa and an index that stand for a number of the format, in its one representation. -/
def Format.Canonical (f : Format) (mantissa index : Nat) : Prop :=
  mantissa < Nat.pow 2 f.precision ∧ index ≤ f.top ∧
    (index = 0 ∨ Nat.pow 2 (f.precision - 1) ≤ mantissa)

instance (f : Format) (mantissa index : Nat) : Decidable (f.Canonical mantissa index) :=
  inferInstanceAs (Decidable (_ ∧ _ ∧ (_ ∨ _)))

/-- A finite number of a format. Zero keeps its sign. -/
structure Finite (f : Format) where
  negative : Bool
  mantissa : Nat
  index : Nat
  canonical : f.Canonical mantissa index
  deriving DecidableEq

/-- A number of a format, or one of the results that are not finite. -/
inductive Binary (f : Format) where
  | finite (value : Finite f)
  | infinite (negative : Bool)
  | nan
  deriving DecidableEq

/-- A 64-bit number. -/
abbrev Double := Binary .double

/-- A 32-bit number. -/
abbrev Single := Binary .single

/-- The integer nearest to `n / d`, the even one of two. -/
def roundHalfEven (n d : Nat) : Nat :=
  let q := n / d
  let twice := 2 * (n % d)
  if twice < d then q
  else if d < twice then q + 1
  else if q % 2 = 0 then q else q + 1

/-- The finite number with these parts, or infinity when the format has none. -/
def Binary.ofParts (f : Format) (negative : Bool) (mantissa index : Nat) : Binary f :=
  if h : f.Canonical mantissa index then .finite ⟨negative, mantissa, index, h⟩
  else .infinite negative

/-- The number of the format nearest to `num / den`, ties to the even mantissa. -/
def Binary.ofRatio (f : Format) (negative : Bool) (num den : Nat) : Binary f :=
  let scaled := num * Nat.pow 2 f.shift
  let guess := Nat.log2 scaled - Nat.log2 den - f.precision
  let index := if Nat.pow 2 f.precision ≤ scaled / (den * Nat.pow 2 guess) then guess + 1 else guess
  let mantissa := roundHalfEven scaled (den * Nat.pow 2 index)
  if mantissa = Nat.pow 2 f.precision then
    ofParts f negative (Nat.pow 2 (f.precision - 1)) (index + 1)
  else ofParts f negative mantissa index

/-- The number nearest to an integer. -/
def Binary.ofInt (f : Format) (i : Int) : Binary f := ofRatio f (i < 0) i.natAbs 1

/-- The number of decimal digits of a natural number. -/
def digitCount (n : Nat) : Nat := (Nat.toDigits 10 n).length

/-- The number nearest to `digits * 10 ^ exponent`. A power of ten far outside the format is decided
by its size alone, so that no huge power is computed. -/
def Binary.ofDecimal (f : Format) (negative : Bool) (digits : Nat) (exponent : Int) : Binary f :=
  let magnitude := exponent + digitCount digits
  if digits = 0 || magnitude < -(f.shift : Int) then ofParts f negative 0 0
  else if (f.top + f.precision : Int) < magnitude then .infinite negative
  else ofRatio f negative (digits * Nat.pow 10 exponent.toNat) (Nat.pow 10 (-exponent).toNat)

/-- The nearest number of another format. -/
def Binary.convert (g : Format) {f : Format} : Binary f → Binary g
  | .finite x => ofRatio g x.negative (x.mantissa * Nat.pow 2 x.index) (Nat.pow 2 f.shift)
  | .infinite negative => .infinite negative
  | .nan => .nan

end ConfigTables.Number
