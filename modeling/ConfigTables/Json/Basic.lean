import ConfigTables.NameMap
import ConfigTables.Number.Binary

/-!
    JSON documents. The members of an object stand in a list, in the order of the document and with
    its repetitions, because reading a schema has to see both. `Json.canonical` is the other view of
    a document, in which every object is a map: its members in ascending order, the last of each
    name. Data rows are read from that view. -/

namespace ConfigTables

/-- A JSON number: an integer of at most 64 bits, or a finite 64-bit floating-point number. -/
inductive JsonNumber where
  | integer (i : Int)
  | real (x : Number.Finite .double)
  deriving DecidableEq

/-- A JSON document. -/
inductive Json where
  | null
  | bool (b : Bool)
  | number (n : JsonNumber)
  | string (s : String)
  | array (items : List Json)
  | object (members : List (String × Json))

namespace JsonNumber

/-- Whether an integer is written as one: those of 64 bits, with or without sign. -/
def fitsInteger (i : Int) : Bool := Int64.minValue.toInt ≤ i && i < UInt64.size

/-- The number as an integer of 64 bits with sign, when it is one. -/
def toInt64? : JsonNumber → Option Int
  | integer i => if i ≤ Int64.maxValue.toInt then some i else none
  | real _ => none

/-- The nearest floating-point number. -/
def toDouble : JsonNumber → Number.Double
  | integer i => .ofInt .double i
  | real x => .finite x

end JsonNumber

namespace Json

instance : Inhabited Json := ⟨null⟩

/-- An integer of at most 64 bits as a document. -/
def int (i : Int) : Json := number (.integer i)

/-- A count as a document. -/
def nat (n : Nat) : Json := int n

/-- A floating-point number as a document, `null` when it is not finite. -/
def real : Number.Double → Json
  | .finite x => number (.real x)
  | .infinite _ => null
  | .nan => null

/-- A text, or `null` for none. -/
def optional : Option String → Json
  | some s => string s
  | none => null

/-- A list of texts. -/
def strings (texts : List String) : Json := array (texts.map string)

/-- An object that is a map. -/
def ofMap (members : List (String × Json)) : Json := object (NameMap.ofList members).entries

/-- The member of an object, `none` also for a document that is none. -/
def member? (name : String) : Json → Option Json
  | object members => (members.find? (·.1 = name)).map (·.2)
  | _ => none

mutual

/-- The document with every object turned into a map. -/
def canonical : Json → Json
  | array items => array (canonicalItems items)
  | object members => ofMap (canonicalMembers members)
  | j => j

/-- `canonical` on the items of an array. -/
def canonicalItems : List Json → List Json
  | [] => []
  | j :: rest => canonical j :: canonicalItems rest

/-- `canonical` on the members of an object. -/
def canonicalMembers : List (String × Json) → List (String × Json)
  | [] => []
  | (name, j) :: rest => (name, canonical j) :: canonicalMembers rest

end

end Json

end ConfigTables
