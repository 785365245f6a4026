import ConfigTables.Json.Basic

/-!
    The data of tables: values, beans with a value for each field, and records, which are beans with
    tags and the place they come from. -/

namespace ConfigTables

/-- A value of a field. Datetimes are seconds since the start of 1970; an enum value keeps the text
of the items it was given by beside its integer; arrays, lists and sets are all sequences. -/
inductive Value where
  | null
  | bool (b : Bool)
  | int (i : Int32)
  | long (i : Int64)
  | float (x : Number.Single)
  | double (x : Number.Double)
  | string (s : String)
  | datetime (seconds : Int64)
  | enum (item : String) (value : Int32)
  | bean (typeName : String) (tagged : Bool) (fields : List (String × Value))
  | seq (items : List Value)
  | map (entries : List (Value × Value))

instance : Inhabited Value := ⟨.null⟩

/-- An instance of a bean: the full name of its type, whether exports name the type, and a value for
each field in order. -/
structure BeanValue where
  typeName : String
  tagged : Bool
  fields : List (String × Value)
  deriving Inhabited

/-- A row of a table. -/
structure Record where
  data : BeanValue
  tags : List String
  source : Option String

/-- The bean as a value. -/
def BeanValue.toValue (b : BeanValue) : Value := .bean b.typeName b.tagged b.fields

/-- The first value of a field. -/
def BeanValue.field? (b : BeanValue) (name : String) : Option Value :=
  (b.fields.find? (·.1 = name)).map (·.2)

/-- Whether none of the record's tags is excluded. -/
def Record.isKept (r : Record) (excluded : List String) : Bool := !r.tags.any (· ∈ excluded)

namespace Value

/-- The word for what a value is. -/
def kind : Value → String
  | null => "null"
  | bool _ => "bool"
  | int _ => "int"
  | long _ => "long"
  | float _ => "float"
  | double _ => "double"
  | string _ => "string"
  | datetime _ => "datetime"
  | enum .. => "enum"
  | bean .. => "bean"
  | seq _ => "seq"
  | map _ => "map"

/-- The member of an exported bean that names its type. -/
def typeKey : String := "$type"

mutual

/-- The exported form of a value: enum values are their integers, maps are lists of pairs, and what
is not a finite number is `null`. -/
def toJson : Value → Json
  | null => .null
  | bool b => .bool b
  | int i => .int i.toInt
  | long i => .int i.toInt
  | float x => .real (x.convert .double)
  | double x => .real x
  | string s => .string s
  | datetime seconds => .int seconds.toInt
  | enum _ value => .int value.toInt
  | bean typeName tagged fields =>
    .ofMap ((if tagged then [(typeKey, Json.string typeName)] else []) ++ fieldsToJson fields)
  | seq items => .array (itemsToJson items)
  | map entries => .array (entriesToJson entries)

/-- The exported fields of a bean. -/
def fieldsToJson : List (String × Value) → List (String × Json)
  | [] => []
  | (name, v) :: rest => (name, toJson v) :: fieldsToJson rest

/-- The exported items of a sequence. -/
def itemsToJson : List Value → List Json
  | [] => []
  | v :: rest => toJson v :: itemsToJson rest

/-- The exported entries of a map. -/
def entriesToJson : List (Value × Value) → List Json
  | [] => []
  | (k, v) :: rest => .array [toJson k, toJson v] :: entriesToJson rest

end

end Value

/-- The exported form of a bean. -/
def BeanValue.toJson (b : BeanValue) : Json := b.toValue.toJson

end ConfigTables
