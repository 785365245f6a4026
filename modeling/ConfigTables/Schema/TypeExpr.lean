/-!
    Types of fields, and the one text each of them is written as: `list<Item>`, `map<int,string>`,
    `Reward?`. A name that is no primitive stands for a declared enum or bean and gets its meaning
    from the type graph. -/

namespace ConfigTables

/-- The types that hold one plain value. -/
inductive Primitive where | bool | int | long | float | double | string | datetime
  deriving DecidableEq, Repr

namespace Primitive

/-- The word for a primitive type. -/
def name : Primitive → String
  | bool => "bool"
  | int => "int"
  | long => "long"
  | float => "float"
  | double => "double"
  | string => "string"
  | datetime => "datetime"

/-- Every primitive type. -/
def all : List Primitive := [bool, int, long, float, double, string, datetime]

/-- The primitive type of a name. -/
def ofName? (word : String) : Option Primitive := all.find? (·.name = word)

theorem ofName?_name (p : Primitive) : ofName? p.name = some p := by
  cases p <;> decide

end Primitive

/-- The containers that hold elements of one type in order. -/
inductive Sequence where | array | list | set
  deriving DecidableEq, Repr

/-- The word for a container. -/
def Sequence.name : Sequence → String
  | array => "array"
  | list => "list"
  | set => "set"

/-- The type of a field. -/
inductive TypeExpr where
  | primitive (p : Primitive)
  | named (name : String)
  | sequence (kind : Sequence) (element : TypeExpr)
  | map (key value : TypeExpr)
  | nullable (inner : TypeExpr)
  deriving DecidableEq, Repr

namespace TypeExpr

/-- The canonical text of a type. -/
def text : TypeExpr → String
  | primitive p => p.name
  | named name => name
  | sequence kind element => kind.name ++ "<" ++ element.text ++ ">"
  | map key value => "map<" ++ key.text ++ "," ++ value.text ++ ">"
  | nullable inner => inner.text ++ "?"

/-- The type without one nullable around it. -/
def nonNull : TypeExpr → TypeExpr
  | nullable inner => inner
  | t => t

/-- The type without any nullable around it. -/
def core : TypeExpr → TypeExpr
  | nullable inner => inner.core
  | t => t

theorem core_ne_nullable (type inner : TypeExpr) : type.core ≠ .nullable inner := by
  induction type with
  | nullable _ ih => exact ih
  | primitive _ => exact nofun
  | named _ => exact nofun
  | sequence _ _ _ => exact nofun
  | map _ _ _ _ => exact nofun

/-- Whether a value may be absent. -/
def isNullable : TypeExpr → Bool
  | nullable _ => true
  | _ => false

/-- Whether rows can be sorted by values of the type. -/
def isIntegerKey : TypeExpr → Bool
  | primitive .int | primitive .long => true
  | _ => false

/-- The declared types that a type mentions, from left to right, with repetitions. -/
def names : TypeExpr → List String
  | primitive _ => []
  | named name => [name]
  | sequence _ element => element.names
  | map key value => key.names ++ value.names
  | nullable inner => inner.names

theorem names_core (type : TypeExpr) : type.core.names = type.names := by
  induction type with
  | nullable _ ih => exact ih
  | primitive _ => rfl
  | named _ => rfl
  | sequence _ _ _ => rfl
  | map _ _ _ _ => rfl

theorem mem_names {type : TypeExpr} {name : String} (h : type.core = named name) :
    name ∈ type.names := by
  rw [← names_core, h]
  exact List.mem_singleton_self name

end TypeExpr

end ConfigTables
