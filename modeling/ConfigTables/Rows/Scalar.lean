import ConfigTables.Calendar.Reader
import ConfigTables.Number.Notation
import ConfigTables.Rows.Error
import ConfigTables.Rows.Value

/-!
    Reading values that hold no other values: primitives and enum items. A place of a row says what
    it holds by its type, and the document may give it in several notations; numbers and truth values
    may also be given as texts, with blanks around them. -/

namespace ConfigTables

/-- A reader's result: a value, or a fault of the place it was read from. -/
abbrev Reading := Except RowFault

/-- An integer of 64 bits. -/
def readInteger : Json → Reading Int
  | .number n =>
    match n.toInt64? with
    | some i => .ok i
    | none => .error (.notInteger (.number n))
  | .string s =>
    match (Number.readInt? (Text.trim s.toList)).filter (Number.fitsInt64 ·) with
    | some i => .ok i
    | none => .error (.notInteger (.text s))
  | _ => .error (.expected .integer)

/-- A floating-point number. -/
def readNumber : Json → Reading Number.Double
  | .number n => .ok n.toDouble
  | .string s =>
    match Number.readBinary? .double (Text.trim s.toList) with
    | some x => .ok x
    | none => .error (.notNumber (.text s))
  | _ => .error (.expected .number)

/-- A truth value. -/
def readBool : Json → Reading Bool
  | .bool b => .ok b
  | .string s =>
    let word := String.ofList ((Text.trim s.toList).map Char.toLower)
    if word = "true" || word = "1" then .ok true
    else if word = "false" || word = "0" then .ok false
    else .error (.notBool (.text s))
  | _ => .error (.expected .bool)

/-- A value of a primitive type. -/
def Primitive.read : Primitive → Json → Reading Value
  | .bool, j => (readBool j).map .bool
  | .int, j => do
    let i ← readInteger j
    if Number.fitsInt32 i then .ok (.int (.ofInt i)) else .error (.overflowsInt i)
  | .long, j => (readInteger j).map fun i => .long (.ofInt i)
  | .float, j => (readNumber j).map fun x => .float (x.convert .single)
  | .double, j => (readNumber j).map .double
  | .string, .string s => .ok (.string s)
  | .string, .number n => .ok (.string n.text)
  | .string, _ => .error (.expected .string)
  | .datetime, .number n => (readInteger (.number n)).map fun i => .datetime (.ofInt i)
  | .datetime, .string s =>
    match Moment.ofText? s with
    | some m => .ok (.datetime (.ofInt m.toSeconds))
    | none => .error (.notDatetime (.text s))
  | .datetime, _ => .error (.expected .datetime)

namespace EnumDef

/-- The item of an integer. -/
def readValue (e : EnumDef) (value : Int) : Reading Value :=
  let item? := if Number.fitsInt32 value then e.itemOfValue? (.ofInt value) else none
  match item? with
  | some i => .ok (.enum i.name i.value)
  | none => .error (.notEnumValue value e.fullName)

/-- The item of a name. -/
def readName (e : EnumDef) (name : String) : Reading EnumItem :=
  match e.item? name with
  | some i => .ok i
  | none => .error (.notEnumItem name e.fullName)

/-- The combination of some items by their names. -/
def combine (e : EnumDef) (value : Int32) : List String → Reading Int32
  | [] => .ok value
  | name :: rest => do
    let i ← e.readName name
    e.combine (value ||| i.value) rest

/-- An item, or a combination of flags, in its text: an integer, names between bars, or a name. -/
def readText (e : EnumDef) (text : List Char) : Reading Value :=
  match (Number.readInt? text).filter (Number.fitsInt64 ·) with
  | some value => e.readValue value
  | none =>
    if e.flags && '|' ∈ text then
      let names := (text.splitOn '|').map fun part => String.ofList (Text.trim part)
      (e.combine 0 names).map (.enum (String.ofList text))
    else (e.readName (String.ofList text)).map fun i => .enum i.name i.value

/-- A value of an enum. -/
def read (e : EnumDef) : Json → Reading Value
  | .number n => do e.readValue (← readInteger (.number n))
  | .string s => e.readText (Text.trim s.toList)
  | _ => .error (.expected (.item e.fullName))

end EnumDef

end ConfigTables
