import ConfigTables.Number.Notation

/-!
    Texts in TOML. A text stands between double quotes, with escapes, or between single quotes,
    without any. Either kind of quote written three times surrounds a text of several lines, in which
    up to two more quotes may stand before the closing ones. -/

namespace ConfigTables.Toml

/-- A step of reading: what was read, and the rest of the text. -/
abbrev Step (α : Type) := List Char → Option (α × List Char)

/-- The white space inside a line. -/
def isSpace (c : Char) : Bool := c = ' ' || c = '\t'

/-- The characters that may stand in a line: no control character but the tab. -/
def isPlain (c : Char) : Bool := c = '\t' || (32 ≤ c.toNat && c.toNat ≠ 127)

/-- The rest of a text after white space. -/
def skipSpace (cs : List Char) : List Char := cs.dropWhile isSpace

/-- The rest of a text after the end of a line, which may be written in two characters. -/
def lineEnd? : List Char → Option (List Char)
  | '\n' :: rest => some rest
  | '\r' :: '\n' :: rest => some rest
  | _ => none

/-- The character that an escape of one letter stands for. -/
def escaped? : Char → Option Char
  | '"' => some '"'
  | '\\' => some '\\'
  | 'b' => some (Char.ofNat 8)
  | 'f' => some (Char.ofNat 12)
  | 'n' => some '\n'
  | 'r' => some '\r'
  | 't' => some '\t'
  | _ => none

/-- The character of a number in hexadecimal digits. -/
def numbered? (digits : List Char) : Option Char :=
  (Number.hexNumber? digits).bind fun n => if n.isValidChar then some (Char.ofNat n) else none

/-- The text of characters in reverse, with the rest. -/
def finish (read rest : List Char) : Option (String × List Char) :=
  some (String.ofList read.reverse, rest)

/-- The rest of a text after its opening double quote; `read` holds the characters so far. -/
def readQuoted (read : List Char) : Step String
  | '"' :: rest => finish read rest
  | '\\' :: 'u' :: a :: b :: c :: d :: rest =>
    match numbered? [a, b, c, d] with
    | some c => readQuoted (c :: read) rest
    | none => none
  | '\\' :: 'U' :: a :: b :: c :: d :: e :: f :: g :: h :: rest =>
    match numbered? [a, b, c, d, e, f, g, h] with
    | some c => readQuoted (c :: read) rest
    | none => none
  | '\\' :: letter :: rest =>
    match escaped? letter with
    | some c => readQuoted (c :: read) rest
    | none => none
  | c :: rest => if isPlain c then readQuoted (c :: read) rest else none
  | [] => none

/-- The rest of a text of several lines after its opening double quotes. A backslash at the end of a
line takes away all white space up to the next word; `joining` is true after one. -/
def readQuotedLines (joining : Bool) (read : List Char) : Step String
  | '"' :: '"' :: '"' :: '"' :: '"' :: rest => finish ('"' :: '"' :: read) rest
  | '"' :: '"' :: '"' :: '"' :: rest => finish ('"' :: read) rest
  | '"' :: '"' :: '"' :: rest => finish read rest
  | '\\' :: 'u' :: a :: b :: c :: d :: rest =>
    match numbered? [a, b, c, d] with
    | some c => readQuotedLines false (c :: read) rest
    | none => none
  | '\\' :: 'U' :: a :: b :: c :: d :: e :: f :: g :: h :: rest =>
    match numbered? [a, b, c, d, e, f, g, h] with
    | some c => readQuotedLines false (c :: read) rest
    | none => none
  | '\\' :: letter :: rest =>
    match escaped? letter with
    | some c => readQuotedLines false (c :: read) rest
    | none =>
      if (lineEnd? (skipSpace (letter :: rest))).isSome then readQuotedLines true read rest
      else none
  | '\r' :: '\n' :: rest => readQuotedLines joining (if joining then read else '\n' :: read) rest
  | c :: rest =>
    if joining && (isSpace c || c = '\n') then readQuotedLines true read rest
    else if isPlain c || c = '\n' then readQuotedLines false (c :: read) rest
    else none
  | [] => none

/-- The rest of a text after its opening single quote. -/
def readLiteral (read : List Char) : Step String
  | '\'' :: rest => finish read rest
  | c :: rest => if isPlain c then readLiteral (c :: read) rest else none
  | [] => none

/-- The rest of a text of several lines after its opening single quotes. -/
def readLiteralLines (read : List Char) : Step String
  | '\'' :: '\'' :: '\'' :: '\'' :: '\'' :: rest => finish ('\'' :: '\'' :: read) rest
  | '\'' :: '\'' :: '\'' :: '\'' :: rest => finish ('\'' :: read) rest
  | '\'' :: '\'' :: '\'' :: rest => finish read rest
  | '\r' :: '\n' :: rest => readLiteralLines ('\n' :: read) rest
  | c :: rest => if isPlain c || c = '\n' then readLiteralLines (c :: read) rest else none
  | [] => none

/-- The text without a line end that directly follows the opening quotes. -/
def afterOpening (cs : List Char) : List Char := (lineEnd? cs).getD cs

end ConfigTables.Toml
