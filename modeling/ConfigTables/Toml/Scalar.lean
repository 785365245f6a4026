import ConfigTables.Calendar
import ConfigTables.Toml.Basic
import ConfigTables.Toml.Text

/-!
    The TOML values that are neither texts nor made of others: truth values, numbers and moments. Such
    a value is a single word, but for the blank that may stand between a day and a time. -/

namespace ConfigTables.Toml

/-- The digits of a number, in which a single underscore may stand between two of them. -/
def digits? (isDigit : Char → Bool) : List Char → Option (List Char)
  | [] => none
  | [c] => if isDigit c then some [c] else none
  | c :: '_' :: rest => if isDigit c then (digits? isDigit rest).map (c :: ·) else none
  | c :: rest => if isDigit c then (digits? isDigit rest).map (c :: ·) else none

/-- The digits of a decimal number, which start with a zero only for the number zero. -/
def wholeDigits? (cs : List Char) : Option (List Char) :=
  (digits? Char.isDigit cs).filter fun _ => cs.head? ≠ some '0' || cs = ['0']

/-- Whether a character is a digit to the base eight. -/
def isOctal (c : Char) : Bool := '0' ≤ c && c ≤ '7'

/-- Whether a character is a digit to the base two. -/
def isBinary (c : Char) : Bool := c = '0' || c = '1'

/-- The value of digits to a base. -/
def valueOfBase (base : Nat) (digits : List Char) : Nat :=
  digits.foldl (fun n c => base * n + (Number.hexValue? c).getD 0) 0

/-- An integer of 64 bits, in decimal digits or to one of the bases that a letter stands for. -/
def integer? (word : List Char) : Option Int :=
  let i := match word with
    | '0' :: 'x' :: rest =>
      (digits? (fun c => (Number.hexValue? c).isSome) rest).map fun ds => (valueOfBase 16 ds : Int)
    | '0' :: 'o' :: rest => (digits? isOctal rest).map fun ds => (valueOfBase 8 ds : Int)
    | '0' :: 'b' :: rest => (digits? isBinary rest).map fun ds => (valueOfBase 2 ds : Int)
    | _ =>
      let (negative, rest) := Number.takeSign word
      (wholeDigits? rest).map fun ds => Number.signed negative (Number.digitsValue ds)
  i.filter Number.fitsInt64

/-- Whether a character can stand in a row of digits. -/
def isInDigits (c : Char) : Bool := c.isDigit || c = '_'

/-- The fraction of a number with its rest; nothing stands for a fraction that is not written. -/
def fraction? : List Char → Option (List Char × List Char)
  | '.' :: rest =>
    (digits? Char.isDigit (rest.takeWhile isInDigits)).map fun ds => (ds, rest.dropWhile isInDigits)
  | rest => some ([], rest)

/-- The exponent of a number, up to its end. -/
def exponent? : List Char → Option Int
  | [] => some 0
  | c :: rest =>
    let (negative, digits) := Number.takeSign rest
    if c = 'e' || c = 'E' then
      (digits? Char.isDigit digits).map fun ds => Number.signed negative (Number.digitsValue ds)
    else none

/-- A floating-point number: digits with a fraction or an exponent, or a name. One that is too large
is refused, but for one that is too far below zero, which is infinite. -/
def float? (word : List Char) : Option Number.Double := do
  let (negative, cs) := Number.takeSign word
  if cs = ['i', 'n', 'f'] then return .infinite negative
  if cs = ['n', 'a', 'n'] then return .nan
  let whole ← wholeDigits? (cs.takeWhile isInDigits)
  let rest := cs.dropWhile isInDigits
  if rest = [] then none
  let (fraction, rest) ← fraction? rest
  let x := Number.Binary.ofDecimal .double negative (Number.digitsValue (whole ++ fraction))
    ((← exponent? rest) - fraction.length)
  if x = .infinite false then none else return x

/-- The number of two digits. -/
def pair? (a b : Char) : Option Nat :=
  if a.isDigit && b.isDigit then some (Number.digitsValue [a, b]) else none

/-- Whether two digits are a number up to `last`. -/
def isPairUpTo (last : Nat) (a b : Char) : Bool := (pair? a b).any (· ≤ last)

/-- Whether a text is a day of the calendar in ten characters. -/
def isDay : List Char → Bool
  | [y₁, y₂, y₃, y₄, '-', m₁, m₂, '-', d₁, d₂] =>
    match pair? y₁ y₂, pair? y₃ y₄, pair? m₁ m₂, pair? d₁ d₂ with
    | some century, some year, some month, some day =>
      Day.isValid ⟨(100 * century + year : Nat), month, day⟩
    | _, _, _, _ => false
  | _ => false

/-- The fraction of a second with its rest: nine digits of it, without the zeros at their end. -/
def secondFraction? : List Char → Option (List Char × List Char)
  | '.' :: rest =>
    let digits := rest.takeWhile Char.isDigit
    let kept := ((digits.take 9).reverse.dropWhile (· = '0')).reverse
    if digits = [] then none
    else some (if kept = [] then [] else '.' :: kept, rest.dropWhile Char.isDigit)
  | rest => some ([], rest)

/-- A time of day at the front of a text, with its rest. -/
def time? : List Char → Option (List Char × List Char)
  | h₁ :: h₂ :: ':' :: m₁ :: m₂ :: ':' :: s₁ :: s₂ :: rest =>
    if isPairUpTo 23 h₁ h₂ && isPairUpTo 59 m₁ m₂ && isPairUpTo 60 s₁ s₂ then
      (secondFraction? rest).map fun (fraction, rest) =>
        ([h₁, h₂, ':', m₁, m₂, ':', s₁, s₂] ++ fraction, rest)
    else none
  | _ => none

/-- The distance from universal time, if there is one. -/
def offset? : List Char → Option (List Char)
  | [] => some []
  | [c] => if c = 'Z' || c = 'z' then some ['Z'] else none
  | [sign, h₁, h₂, ':', m₁, m₂] =>
    if (sign = '+' || sign = '-') && isPairUpTo 23 h₁ h₂ && isPairUpTo 59 m₁ m₂ then
      let isZero := [h₁, h₂, m₁, m₂] = ['0', '0', '0', '0']
      some [if isZero then '+' else sign, h₁, h₂, ':', m₁, m₂]
    else none
  | _ => none

/-- The text of a moment: a day, a time, or both with the distance from universal time. -/
def moment? (word : List Char) : Option String :=
  if isDay (word.take 10) then
    match word.drop 10 with
    | [] => some (String.ofList word)
    | c :: rest =>
      if c = 'T' || c = 't' || c = ' ' then do
        let (time, rest) ← time? rest
        return String.ofList (word.take 10 ++ 'T' :: time ++ (← offset? rest))
      else none
  else
    match time? word with
    | some (time, []) => some (String.ofList time)
    | _ => none

/-- The value of a word. -/
def scalar? (word : List Char) : Option Toml :=
  if word = ['t', 'r', 'u', 'e'] then some (bool true)
  else if word = ['f', 'a', 'l', 's', 'e'] then some (bool false)
  else ((moment? word).map moment).or (((integer? word).map integer).or ((float? word).map float))

/-- Whether a character can stand in a word. -/
def isInWord (c : Char) : Bool := c.isAlphanum || c = '+' || c = '-' || c = '_' || c = '.' || c = ':'

/-- Takes a word off the front of a text. A blank belongs to it after a day and before a digit. -/
def takeWord (cs : List Char) : List Char × List Char :=
  let word := cs.takeWhile isInWord
  match cs.dropWhile isInWord with
  | ' ' :: c :: rest =>
    if isDay word && c.isDigit then
      (word ++ ' ' :: (c :: rest).takeWhile isInWord, (c :: rest).dropWhile isInWord)
    else (word, ' ' :: c :: rest)
  | rest => (word, rest)

/-- A value that is neither a text nor made of others. -/
def readScalar : Step Toml := fun cs =>
  let (word, rest) := takeWord cs
  (scalar? word).map (·, rest)

end ConfigTables.Toml
