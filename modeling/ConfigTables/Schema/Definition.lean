import ConfigTables.Schema.TypeExpr

/-!
    What a schema declares: enums of named integers, beans (records, possibly with a parent whose
    fields they inherit) and tables of rows of one bean. A declaration is known by its full name, the
    namespace and the name with a dot between them. -/

namespace ConfigTables

/-- The three kinds of declarations. -/
inductive Kind where | enum | bean | table
  deriving DecidableEq, Repr

/-- The word for a kind. -/
def Kind.label : Kind → String
  | enum => "enum"
  | bean => "bean"
  | table => "table"

/-- A name qualified by its namespace; the empty namespace leaves no dot. -/
def qualify (space name : String) : String := if space = "" then name else space ++ "." ++ name

/-- An item of an enum; the alternate is a second name for it in data. -/
structure EnumItem where
  name : String
  value : Int32
  alternate : Option String
  comment : Option String
  deriving DecidableEq

/-- An enum. The items of a flags enum may be combined bit by bit. -/
structure EnumDef where
  space : String
  name : String
  flags : Bool
  groups : List String
  items : List EnumItem
  comment : Option String
  deriving DecidableEq

/-- A field of a bean. -/
structure FieldDef where
  name : String
  type : TypeExpr
  comment : Option String
  deriving DecidableEq

/-- A bean. No row may be an instance of an abstract one. -/
structure BeanDef where
  space : String
  name : String
  parent : Option String
  isAbstract : Bool
  groups : List String
  fields : List FieldDef
  comment : Option String
  deriving DecidableEq

/-- How the rows of a table are kept: under a unique key, in a list, or as a single row. -/
inductive TableMode where | map | list | one
  deriving DecidableEq, Repr

/-- A table of rows of the bean `valueType`. The index names the field that keys the rows, the input
the source of the rows where that is not the name of the table. -/
structure TableDef where
  space : String
  name : String
  valueType : String
  index : Option String
  mode : TableMode
  groups : List String
  input : Option String
  comment : Option String
  deriving DecidableEq

/-- A declaration. -/
inductive TypeDef where
  | enum (e : EnumDef)
  | bean (b : BeanDef)
  | table (t : TableDef)
  deriving DecidableEq

/-- The word for a mode. -/
def TableMode.name : TableMode → String
  | map => "map"
  | list => "list"
  | one => "one"

/-- The mode of a name. -/
def TableMode.ofName? (word : String) : Option TableMode := [map, list, one].find? (·.name = word)

/-- The full name of an enum. -/
def EnumDef.fullName (e : EnumDef) : String := qualify e.space e.name

/-- The first item that has a name, as its name or as its alternate. -/
def EnumDef.item? (e : EnumDef) (name : String) : Option EnumItem :=
  e.items.find? fun i => i.name = name || i.alternate = some name

/-- The first item that has a value. -/
def EnumDef.itemOfValue? (e : EnumDef) (value : Int32) : Option EnumItem :=
  e.items.find? (·.value = value)

/-- The full name of a bean. -/
def BeanDef.fullName (b : BeanDef) : String := qualify b.space b.name

/-- The first field of a name that the bean declares itself. -/
def BeanDef.field? (b : BeanDef) (name : String) : Option FieldDef := b.fields.find? (·.name = name)

/-- The full name of a table. -/
def TableDef.fullName (t : TableDef) : String := qualify t.space t.name

/-- Whether the table holds exactly one row. -/
def TableDef.isSingleton (t : TableDef) : Bool := t.mode = .one

/-- The name of the source of the rows. -/
def TableDef.inputName (t : TableDef) : String := t.input.getD t.name

namespace TypeDef

/-- The kind of a declaration. -/
def kind : TypeDef → Kind
  | enum _ => .enum
  | bean _ => .bean
  | table _ => .table

/-- The namespace of a declaration. -/
def space : TypeDef → String
  | enum e => e.space
  | bean b => b.space
  | table t => t.space

/-- The name of a declaration inside its namespace. -/
def name : TypeDef → String
  | enum e => e.name
  | bean b => b.name
  | table t => t.name

/-- The full name of a declaration. -/
def fullName (d : TypeDef) : String := qualify d.space d.name

/-- The groups that a declaration belongs to. -/
def groups : TypeDef → List String
  | enum e => e.groups
  | bean b => b.groups
  | table t => t.groups

/-- The bean that is declared. -/
def bean? : TypeDef → Option BeanDef
  | bean b => some b
  | _ => none

/-- The enum that is declared. -/
def enum? : TypeDef → Option EnumDef
  | enum e => some e
  | _ => none

/-- The table that is declared. -/
def table? : TypeDef → Option TableDef
  | table t => some t
  | _ => none

end TypeDef

end ConfigTables
