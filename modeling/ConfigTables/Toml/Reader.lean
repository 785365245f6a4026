import ConfigTables.Toml.Scalar
import ConfigTables.Toml.Slot

/-!
    Reading TOML. The text is read as a list of statements, one a line, and these are carried out one
    after the other on a table that starts empty. Arrays and tables may stand inside each other to a
    depth of `maxDepth`, and that depth is what the recursion runs on. -/

namespace ConfigTables.Toml

/-- How deep arrays and tables in braces may stand inside each other. -/
def maxDepth : Nat := 79

/-- One line of a document: a value for a key, the header of a table, or the header of one more table
in an array. -/
inductive Statement where
  | assign (key : Key) (v : Toml)
  | header (key : Key)
  | itemHeader (key : Key)

/-- Whether a character can stand in a key without quotes. -/
def isInBareKey (c : Char) : Bool := c.isAlphanum || c = '_' || c = '-'

/-- The rest of a text after white space, line ends and comments; `inComment` is true inside one. -/
def skipLines (inComment : Bool) : List Char → List Char
  | '\r' :: '\n' :: rest => skipLines false rest
  | c :: rest =>
    if c = '\n' then skipLines false rest
    else if inComment then if isPlain c then skipLines true rest else c :: rest
    else if c = '#' then skipLines true rest
    else if isSpace c then skipLines false rest
    else c :: rest
  | [] => []

/-- The rest of a text after the end of a statement: white space, a comment, and the end of the line
or of the text. -/
def endOfStatement? (cs : List Char) : Option (List Char) :=
  let cs := match skipSpace cs with
    | '#' :: rest => rest.dropWhile isPlain
    | rest => rest
  if cs = [] then some [] else lineEnd? cs

/-- A part of a key. -/
def readKeyPart : Step String
  | '"' :: rest => readQuoted [] rest
  | '\'' :: rest => readLiteral [] rest
  | cs =>
    let word := cs.takeWhile isInBareKey
    if word = [] then none else some (String.ofList word, cs.dropWhile isInBareKey)

/-- The parts of a key with the white space around them; `count` bounds their number. -/
def readKeyParts : Nat → Step Key
  | 0, _ => none
  | count + 1, cs => do
    let (part, cs) ← readKeyPart (skipSpace cs)
    match skipSpace cs with
    | '.' :: rest =>
      let (key, rest) ← readKeyParts count rest
      return (⟨part :: key.above, key.name⟩, rest)
    | rest => return (⟨[], part⟩, rest)

/-- A key with the white space around it. -/
def readKey : Step Key := readKeyParts Key.maxLength

/-- A key, an equals sign and a value. -/
def readAssignment (readItem : Step Toml) : Step (Key × Toml) := fun cs => do
  let (key, cs) ← readKey cs
  match cs with
  | '=' :: rest =>
    let (v, rest) ← readItem (skipSpace rest)
    return ((key, v), rest)
  | _ => none

/-- The items of an array after its opening bracket, up to and with the closing one; `count` bounds
their number. A comma may stand after the last item. -/
def readItems (readItem : Step Toml) : Nat → Step (List Toml)
  | 0, _ => none
  | count + 1, cs =>
    match skipLines false cs with
    | ']' :: rest => some ([], rest)
    | cs => do
      let (item, cs) ← readItem cs
      match skipLines false cs with
      | ',' :: rest =>
        let (items, rest) ← readItems readItem count rest
        return (item :: items, rest)
      | ']' :: rest => return ([item], rest)
      | _ => none

/-- The members of a table after its opening brace, at least one, up to and with the closing one;
`count` bounds their number. -/
def readMembers (readItem : Step Toml) : Nat → Slots → Step Slots
  | 0, _, _ => none
  | count + 1, slots, cs => do
    let ((key, v), cs) ← readAssignment readItem cs
    let slots ← Slot.assign? key v .declared slots
    match skipSpace cs with
    | ',' :: rest => readMembers readItem count slots rest
    | '\x7d' :: rest => return (slots, rest)
    | _ => none

/-- A value in which arrays and tables nest no deeper than `depth`. -/
def readValue : Nat → Step Toml
  | _, '"' :: '"' :: '"' :: rest =>
    (readQuotedLines false [] (afterOpening rest)).map fun (s, rest) => (string s, rest)
  | _, '"' :: rest => (readQuoted [] rest).map fun (s, rest) => (string s, rest)
  | _, '\'' :: '\'' :: '\'' :: rest =>
    (readLiteralLines [] (afterOpening rest)).map fun (s, rest) => (string s, rest)
  | _, '\'' :: rest => (readLiteral [] rest).map fun (s, rest) => (string s, rest)
  | 0, '[' :: _ => none
  | depth + 1, '[' :: rest =>
    (readItems (readValue depth) (rest.length + 1) rest).map fun (items, rest) =>
      (array items, rest)
  | 0, '\x7b' :: _ => none
  | depth + 1, '\x7b' :: rest =>
    match skipSpace rest with
    | '\x7d' :: rest => some (table [], rest)
    | rest => (readMembers (readValue depth) rest.length [] rest).map fun (slots, rest) =>
        (table (Slot.memberValues slots), rest)
  | _, cs => readScalar cs

/-- A statement without the end of its line. -/
def readStatement : Step Statement
  | '[' :: '[' :: cs => do
    let (key, cs) ← readKey cs
    match cs with
    | ']' :: ']' :: rest => return (.itemHeader key, rest)
    | _ => none
  | '[' :: cs => do
    let (key, cs) ← readKey cs
    match cs with
    | ']' :: rest => return (.header key, rest)
    | _ => none
  | cs => (readAssignment (readValue maxDepth) cs).map fun ((key, v), rest) => (.assign key v, rest)

/-- The statements of a text; `count` bounds their number. -/
def readStatements : Nat → List Char → Option (List Statement)
  | 0, _ => none
  | count + 1, cs =>
    match skipLines false cs with
    | [] => some []
    | cs => do
      let (s, cs) ← readStatement cs
      return s :: (← readStatements count (← endOfStatement? cs))

/-- A document so far, and the table that the last header leads to. -/
structure Draft where
  current : List String
  root : Slots

/-- Carries out a statement on a draft. -/
def Draft.add? (d : Draft) : Statement → Option Draft
  | .assign key v =>
    (Slot.update? .implied (Slot.assign? key v) d.current .declared d.root).map ({ d with root := · })
  | .header key => (Slot.declare? key d.root).map (⟨key.above ++ [key.name], ·⟩)
  | .itemHeader key => (Slot.append? key d.root).map (⟨key.above ++ [key.name], ·⟩)

/-- The document that statements make. -/
def ofStatements? (statements : List Statement) : Option Toml :=
  (statements.foldlM Draft.add? ⟨[], []⟩).map fun d => table (Slot.memberValues d.root)

/-- The document that a text holds; a mark of the byte order may stand at its start. -/
def ofText? (text : String) : Option Toml :=
  let cs := match text.toList with
    | '\ufeff' :: rest => rest
    | cs => cs
  (readStatements (cs.length + 1) cs).bind ofStatements?

end ConfigTables.Toml
