import ConfigTables.Json.Reader
import ConfigTables.Number.Notation
import ConfigTables.Schema.Definition
import ConfigTables.Schema.TypeExpr.Reader

/-!
    Schemas as JSON documents. Every record of a schema can be written in two forms: as an object of
    its members, or as an array of their values in a fixed order. `Json.record?` reads both, so the
    readers below say for each member only what it holds and what stands for it when it is left out.
    The printers write the object form. -/

namespace ConfigTables

/-- A schema before it is checked: the version of its format, and the declarations in order. -/
structure SchemaDocument where
  version : String
  types : List TypeDef
  deriving DecidableEq

/-- The version of the format that a document without one has. -/
def SchemaDocument.currentVersion : String := "0.1"

namespace Json

/-- The members of a record. An object holds each known member once at most, and any others; an
array holds the values of the first members, and no more than there are members. -/
def record? (names : List String) : Json → Option (List (String × Json))
  | object members =>
    if names.all fun name => (members.filter (·.1 = name)).length ≤ 1 then some members else none
  | array items => if items.length ≤ names.length then some (names.zip items) else none
  | _ => none

/-- A text. -/
def asString? : Json → Option String
  | string s => some s
  | _ => none

/-- A truth value. -/
def asBool? : Json → Option Bool
  | bool b => some b
  | _ => none

/-- A text, or nothing. -/
def asOptional? : Json → Option (Option String)
  | null => some none
  | string s => some (some s)
  | _ => none

/-- An integer of 32 bits. -/
def asInt32? : Json → Option Int32
  | number (.integer i) => if Number.fitsInt32 i then some (.ofInt i) else none
  | _ => none

/-- A list whose items can all be read. -/
def asList? {α : Type} (read : Json → Option α) : Json → Option (List α)
  | array items => items.mapM read
  | _ => none

/-- A list of texts. -/
def asStrings? (j : Json) : Option (List String) := j.asList? asString?

/-- A required member of a record. -/
def required? {α : Type} (members : List (String × Json)) (name : String)
    (read : Json → Option α) : Option α :=
  (members.find? (·.1 = name)).bind fun member => read member.2

/-- A member of a record that may be left out. -/
def default? {α : Type} (members : List (String × Json)) (name : String) (value : α)
    (read : Json → Option α) : Option α :=
  match members.find? (·.1 = name) with
  | none => some value
  | some member => read member.2

end Json

open Json (required? default?)

/-- Reads a type expression. -/
def TypeExpr.ofJson? : Json → Option TypeExpr
  | .string s => (TypeExpr.parse s).toOption
  | _ => none

/-- Reads a mode: its name, or an object whose one member has that name and holds nothing. -/
def TableMode.ofJson? : Json → Option TableMode
  | .string s => TableMode.ofName? s
  | .object [(name, .null)] => TableMode.ofName? name
  | _ => none

/-- Reads a mode in a declaration, where an empty object holds nothing as well. -/
def TableMode.ofDeclared? : Json → Option TableMode
  | .object [(name, .object [])] => TableMode.ofName? name
  | j => ofJson? j

/-- The members of an enum item, in order. -/
def EnumItem.members : List String := ["name", "value", "alias", "comment"]

/-- Reads an enum item. -/
def EnumItem.ofJson? (j : Json) : Option EnumItem := do
  let m ← j.record? members
  return {
    name := ← required? m "name" Json.asString?
    value := ← required? m "value" Json.asInt32?
    alternate := ← default? m "alias" none Json.asOptional?
    comment := ← default? m "comment" none Json.asOptional? }

/-- The members of an enum, in order. -/
def EnumDef.members : List String := ["namespace", "name", "flags", "groups", "items", "comment"]

/-- Reads an enum. -/
def EnumDef.ofJson? (j : Json) : Option EnumDef := do
  let m ← j.record? members
  return {
    space := ← default? m "namespace" "" Json.asString?
    name := ← required? m "name" Json.asString?
    flags := ← default? m "flags" false Json.asBool?
    groups := ← default? m "groups" [] Json.asStrings?
    items := ← required? m "items" (Json.asList? EnumItem.ofJson?)
    comment := ← default? m "comment" none Json.asOptional? }

/-- The members of a field, in order. -/
def FieldDef.members : List String := ["name", "type", "comment"]

/-- Reads a field. -/
def FieldDef.ofJson? (j : Json) : Option FieldDef := do
  let m ← j.record? members
  return {
    name := ← required? m "name" Json.asString?
    type := ← required? m "type" TypeExpr.ofJson?
    comment := ← default? m "comment" none Json.asOptional? }

/-- The members of a bean, in order. -/
def BeanDef.members : List String :=
  ["namespace", "name", "parent", "is_abstract", "groups", "fields", "comment"]

/-- Reads a bean. -/
def BeanDef.ofJson? (j : Json) : Option BeanDef := do
  let m ← j.record? members
  return {
    space := ← default? m "namespace" "" Json.asString?
    name := ← required? m "name" Json.asString?
    parent := ← default? m "parent" none Json.asOptional?
    isAbstract := ← default? m "is_abstract" false Json.asBool?
    groups := ← default? m "groups" [] Json.asStrings?
    fields := ← default? m "fields" [] (Json.asList? FieldDef.ofJson?)
    comment := ← default? m "comment" none Json.asOptional? }

/-- The members of a table, in order. -/
def TableDef.members : List String :=
  ["namespace", "name", "value_type", "index", "mode", "groups", "input", "comment"]

/-- Reads a table whose mode is read in a given way. -/
def TableDef.ofJsonWith? (mode : Json → Option TableMode) (j : Json) : Option TableDef := do
  let m ← j.record? members
  return {
    space := ← default? m "namespace" "" Json.asString?
    name := ← required? m "name" Json.asString?
    valueType := ← required? m "value_type" Json.asString?
    index := ← default? m "index" none Json.asOptional?
    mode := ← default? m "mode" .map mode
    groups := ← default? m "groups" [] Json.asStrings?
    input := ← default? m "input" none Json.asOptional?
    comment := ← default? m "comment" none Json.asOptional? }

/-- Reads a table. -/
def TableDef.ofJson? : Json → Option TableDef := ofJsonWith? TableMode.ofJson?

/-- Takes the kind off a declaration: the one member of that name of an object, or the first item of
an array. -/
def TypeDef.takeKind? : Json → Option (String × Json)
  | .object members =>
    match members.filter (·.1 = "kind") with
    | [(_, .string kind)] => some (kind, .object (members.filter (·.1 ≠ "kind")))
    | _ => none
  | .array (.string kind :: items) => some (kind, .array items)
  | _ => none

/-- Reads a declaration. -/
def TypeDef.ofJson? (j : Json) : Option TypeDef := do
  match ← takeKind? j with
  | ("enum", rest) => (EnumDef.ofJson? rest).map enum
  | ("bean", rest) => (BeanDef.ofJson? rest).map bean
  | ("table", rest) => (TableDef.ofJsonWith? TableMode.ofDeclared? rest).map table
  | _ => none

/-- The members of a schema document, in order. -/
def SchemaDocument.members : List String := ["schema_version", "types"]

/-- Reads a schema document. -/
def SchemaDocument.ofJson? (j : Json) : Option SchemaDocument := do
  let m ← j.record? members
  return {
    version := ← default? m "schema_version" currentVersion Json.asString?
    types := ← required? m "types" (Json.asList? TypeDef.ofJson?) }

/-- The schema document that a text holds. -/
def SchemaDocument.ofText? (text : String) : Option SchemaDocument :=
  (Json.recordOfText? members text).bind ofJson?

/-- A member that is written only when it holds a text. -/
def Json.optionalMember (name : String) : Option String → List (String × Json)
  | some s => [(name, .string s)]
  | none => []

/-- The groups of a declaration, written only when there are some. -/
def Json.groupsMember (groups : List String) : List (String × Json) :=
  if groups.isEmpty then [] else [("groups", .strings groups)]

open Json (optionalMember groupsMember)

/-- An enum item as a document. -/
def EnumItem.toJson (i : EnumItem) : Json :=
  .object ([("name", .string i.name), ("value", .int i.value.toInt)] ++
    optionalMember "alias" i.alternate ++ optionalMember "comment" i.comment)

/-- The members that an enum is written with. -/
def EnumDef.toMembers (e : EnumDef) : List (String × Json) :=
  [("namespace", .string e.space), ("name", .string e.name), ("flags", .bool e.flags)] ++
    groupsMember e.groups ++ [("items", .array (e.items.map EnumItem.toJson))] ++
    optionalMember "comment" e.comment

/-- A field as a document. -/
def FieldDef.toJson (f : FieldDef) : Json :=
  .object ([("name", .string f.name), ("type", .string f.type.text)] ++
    optionalMember "comment" f.comment)

/-- The members that a bean is written with. -/
def BeanDef.toMembers (b : BeanDef) : List (String × Json) :=
  [("namespace", .string b.space), ("name", .string b.name)] ++
    optionalMember "parent" b.parent ++ [("is_abstract", .bool b.isAbstract)] ++
    groupsMember b.groups ++ [("fields", .array (b.fields.map FieldDef.toJson))] ++
    optionalMember "comment" b.comment

/-- The members that a table is written with. -/
def TableDef.toMembers (t : TableDef) : List (String × Json) :=
  [("namespace", .string t.space), ("name", .string t.name),
    ("value_type", .string t.valueType)] ++
    optionalMember "index" t.index ++ [("mode", .string t.mode.name)] ++
    groupsMember t.groups ++ optionalMember "input" t.input ++ optionalMember "comment" t.comment

/-- A declaration as a document. -/
def TypeDef.toJson : TypeDef → Json
  | .enum e => .object (("kind", .string "enum") :: e.toMembers)
  | .bean b => .object (("kind", .string "bean") :: b.toMembers)
  | .table t => .object (("kind", .string "table") :: t.toMembers)

/-- A schema as a document. -/
def SchemaDocument.toJson (d : SchemaDocument) : Json :=
  .object [("schema_version", .string d.version), ("types", .array (d.types.map TypeDef.toJson))]

end ConfigTables
