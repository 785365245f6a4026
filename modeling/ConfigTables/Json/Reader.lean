import ConfigTables.Json.Basic
import ConfigTables.Number.Notation

/-!
    Reading JSON. A step takes what it reads off the front of the text and leaves the rest. Arrays
    and objects may stand inside each other to a depth of `maxDepth`, and that depth is what the
    recursion runs on. What a reader of a record does not ask for is not bound by that depth, nor by
    the limits of texts and numbers, but has to have the form of a value. -/

namespace ConfigTables.Json

/-- How deep arrays and objects may stand inside each other. -/
def maxDepth : Nat := 127

/-- A step of reading: what was read, and the rest of the text. -/
abbrev Step (α : Type) := List Char → Option (α × List Char)

/-- The white space of the format. -/
def isSpace (c : Char) : Bool := c = ' ' || c = '\n' || c = '\t' || c = '\r'

/-- The rest of a text after white space. -/
def skipSpace (cs : List Char) : List Char := cs.dropWhile isSpace

/-- The character that an escape of one letter stands for. -/
def escaped? : Char → Option Char
  | '"' => some '"'
  | '\\' => some '\\'
  | '/' => some '/'
  | 'b' => some (Char.ofNat 8)
  | 'f' => some (Char.ofNat 12)
  | 'n' => some (Char.ofNat 10)
  | 'r' => some (Char.ofNat 13)
  | 't' => some (Char.ofNat 9)
  | _ => none

/-- The rest of a text after its opening quote; `read` holds the characters so far, reversed. An
escaped unit of the upper half of a pair has to be followed by one of the lower half. -/
def readText (read : List Char) : Step String
  | '"' :: rest => some (String.ofList read.reverse, rest)
  | '\\' :: 'u' :: a :: b :: c :: d :: rest =>
    match Number.hexNumber? [a, b, c, d] with
    | none => none
    | some unit =>
      if unit < 0xd800 || 0xdfff < unit then readText (Char.ofNat unit :: read) rest
      else if unit < 0xdc00 then
        match rest with
        | '\\' :: 'u' :: a :: b :: c :: d :: rest =>
          match Number.hexNumber? [a, b, c, d] with
          | none => none
          | some low =>
            if 0xdc00 ≤ low && low ≤ 0xdfff then
              readText (Char.ofNat (0x10000 + (unit - 0xd800) * 0x400 + (low - 0xdc00)) :: read) rest
            else none
        | _ => none
      else none
  | '\\' :: letter :: rest =>
    match escaped? letter with
    | some c => readText (c :: read) rest
    | none => none
  | c :: rest => if c.toNat < 32 then none else readText (c :: read) rest
  | [] => none

/-- The rest of a text after its opening quote, which is only looked at for its form: half a pair of
escaped units is passed over. -/
def skipText : Step String
  | '"' :: rest => some ("", rest)
  | '\\' :: 'u' :: a :: b :: c :: d :: rest =>
    if (Number.hexNumber? [a, b, c, d]).isSome then skipText rest else none
  | '\\' :: letter :: rest => if (escaped? letter).isSome then skipText rest else none
  | c :: rest => if c.toNat < 32 then none else skipText rest
  | [] => none

/-- Takes the digits off the front of a text, at least one. -/
def readDigits : Step (List Char) := fun cs =>
  let digits := cs.takeWhile Char.isDigit
  if digits = [] then none else some (digits, cs.dropWhile Char.isDigit)

/-- The fraction of a number, if it has one. -/
def readFraction : Step (Option (List Char))
  | '.' :: rest => (readDigits rest).map fun (digits, rest) => (some digits, rest)
  | rest => some (none, rest)

/-- The exponent of a number, if it has one. -/
def readExponent : Step (Option Int)
  | c :: rest =>
    if c = 'e' || c = 'E' then
      let (negative, rest) := Number.takeSign rest
      (readDigits rest).map fun (digits, rest) =>
        (some (Number.signed negative (Number.digitsValue digits)), rest)
    else some (none, c :: rest)
  | [] => some (none, [])

/-- The parts of a number as it is written. -/
structure NumberParts where
  negative : Bool
  whole : List Char
  fraction : Option (List Char)
  exponent : Option Int

/-- The number with these parts. An integer of 64 bits is kept exactly, except minus zero; every
other number is rounded, and has to be finite. -/
def NumberParts.number? (p : NumberParts) : Option JsonNumber :=
  let i := Number.signed p.negative (Number.digitsValue p.whole)
  if p.fraction.isNone && p.exponent.isNone && JsonNumber.fitsInteger i &&
      !(p.negative && i = 0) then
    some (.integer i)
  else
    let places := p.fraction.getD []
    match Number.Binary.ofDecimal .double p.negative (Number.digitsValue (p.whole ++ places))
        (p.exponent.getD 0 - places.length) with
    | .finite x => some (.real x)
    | _ => none

/-- The parts of a number. The whole part starts with a zero only if it is zero. -/
def readNumberParts : Step NumberParts := fun cs => do
  let (negative, cs) := match cs with
    | '-' :: rest => (true, rest)
    | cs => (false, cs)
  let (whole, cs) ← readDigits cs
  if whole.head? = some '0' && whole.length ≠ 1 then none
  let (fraction, cs) ← readFraction cs
  let (exponent, cs) ← readExponent cs
  return (⟨negative, whole, fraction, exponent⟩, cs)

/-- A number. -/
def readNumber : Step JsonNumber := fun cs => do
  let (parts, cs) ← readNumberParts cs
  return (← parts.number?, cs)

/-- How texts, after their opening quotes, and numbers are read. -/
structure Leaves where
  text : Step String
  number : Step JsonNumber

/-- Texts and numbers are read for what they say. -/
def Leaves.exact : Leaves := ⟨readText [], readNumber⟩

/-- Texts and numbers are read for their form, and nothing is kept of them. -/
def Leaves.formOnly : Leaves :=
  ⟨skipText, fun cs => (readNumberParts cs).map fun (_, rest) => (.integer 0, rest)⟩

/-- The items of an array after its opening bracket and first white space, at least one, up to and
with the closing bracket; `count` bounds their number. -/
def readItems (readItem : Step Json) : Nat → Step (List Json)
  | 0, _ => none
  | count + 1, cs => do
    let (item, cs) ← readItem cs
    match skipSpace cs with
    | ',' :: rest =>
      let (items, rest) ← readItems readItem count (skipSpace rest)
      return (item :: items, rest)
    | ']' :: rest => return ([item], rest)
    | _ => none

/-- The members of an object after its opening brace and first white space, at least one, up to and
with the closing brace; `count` bounds their number. How a member is read may depend on its name. -/
def readMembers (readName : Step String) (readItem : String → Step Json) :
    Nat → Step (List (String × Json))
  | 0, _ => none
  | count + 1, cs => do
    let (name, cs) ← match cs with
      | '"' :: rest => readName rest
      | _ => none
    let (item, cs) ← match skipSpace cs with
      | ':' :: rest => readItem name (skipSpace rest)
      | _ => none
    match skipSpace cs with
    | ',' :: rest =>
      let (members, rest) ← readMembers readName readItem count (skipSpace rest)
      return ((name, item) :: members, rest)
    | '\x7d' :: rest => return ([(name, item)], rest)
    | _ => none

/-- A value in which arrays and objects nest no deeper than `depth`. -/
def readValue (leaves : Leaves) : Nat → Step Json
  | _, 'n' :: 'u' :: 'l' :: 'l' :: rest => some (null, rest)
  | _, 't' :: 'r' :: 'u' :: 'e' :: rest => some (bool true, rest)
  | _, 'f' :: 'a' :: 'l' :: 's' :: 'e' :: rest => some (bool false, rest)
  | _, '"' :: rest => (leaves.text rest).map fun (s, rest) => (string s, rest)
  | 0, '[' :: _ => none
  | depth + 1, '[' :: rest =>
    match skipSpace rest with
    | ']' :: rest => some (array [], rest)
    | rest => (readItems (readValue leaves depth) rest.length rest).map fun (items, rest) =>
        (array items, rest)
  | 0, '\x7b' :: _ => none
  | depth + 1, '\x7b' :: rest =>
    match skipSpace rest with
    | '\x7d' :: rest => some (object [], rest)
    | rest =>
      (readMembers leaves.text (fun _ => readValue leaves depth) rest.length rest).map
        fun (members, rest) => (object members, rest)
  | _, cs => (leaves.number cs).map fun (n, rest) => (number n, rest)

/-- What a step reads of a whole text, with nothing but white space around it. -/
def whole? (read : Step Json) (text : String) : Option Json :=
  match read (skipSpace text.toList) with
  | some (j, rest) => if skipSpace rest = [] then some j else none
  | none => none

/-- The document that a text holds, with nothing after it. -/
def ofText? (text : String) : Option Json := whole? (readValue .exact maxDepth) text

/-- The document that a text holds, with its objects as maps. -/
def mapsOfText? (text : String) : Option Json := (ofText? text).map canonical

/-- A member of a record: one that nobody asks for is read for its form, to any depth. -/
def readMember (names : List String) (name : String) : Step Json := fun cs =>
  if name ∈ names then readValue .exact (maxDepth - 1) cs
  else (readValue .formOnly cs.length cs).map fun (_, rest) => (null, rest)

/-- An object of which only the members with some names are asked for, or any other value. -/
def readRecord (names : List String) : Step Json
  | '\x7b' :: rest =>
    match skipSpace rest with
    | '\x7d' :: rest => some (object [], rest)
    | rest => (readMembers (readText []) (readMember names) rest.length rest).map
        fun (members, rest) => (object members, rest)
  | cs => readValue .exact maxDepth cs

/-- The record of some names that a text holds, with nothing after it. -/
def recordOfText? (names : List String) (text : String) : Option Json :=
  whole? (readRecord names) text

end ConfigTables.Json
