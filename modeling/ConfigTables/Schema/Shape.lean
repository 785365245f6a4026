import ConfigTables.Json.Basic
import ConfigTables.Schema.Document

/-!
    The shape of schema documents, described as a JSON Schema for editors and checkers. Members are
    described in ascending order of their names. -/

namespace ConfigTables

/-- The members of the description of a value. -/
abbrev Shape := List (String × Json)

namespace Shape

/-- A text. -/
def text : Shape := [("type", .string "string")]

/-- A text, or nothing. -/
def optionalText : Shape := [("type", .strings ["string", "null"])]

/-- A truth value. -/
def truth : Shape := [("type", .string "boolean")]

/-- An integer of 32 bits. -/
def int32 : Shape := [("type", .string "integer"), ("format", .string "int32")]

/-- A list of values of a shape. -/
def list (item : Shape) : Shape := [("type", .string "array"), ("items", .object item)]

/-- A text that can only be one. -/
def constant (s : String) : Shape := [("type", .string "string"), ("enum", .strings [s])]

/-- A value of a shape that is defined elsewhere. -/
def named (name : String) : Shape := [("$ref", .string ("#/definitions/" ++ name))]

/-- A value of one of several shapes. -/
def oneOf (shapes : List Shape) : Shape := [("oneOf", .array (shapes.map .object))]

/-- A shape with an explanation. -/
def described (description : String) (shape : Shape) : Shape :=
  ("description", .string description) :: shape

/-- A shape with the value that stands for one that is left out. -/
def defaulted (value : Json) (shape : Shape) : Shape := ("default", value) :: shape

/-- What a record holds under a name. -/
structure Member where
  name : String
  required : Bool
  shape : Shape

/-- A member that has to be there. -/
def required (name : String) (shape : Shape) : Member := ⟨name, true, shape⟩

/-- A member that may be left out. -/
def optional (name : String) (shape : Shape) : Member := ⟨name, false, shape⟩

/-- A record of members. -/
def record (members : List Member) : Shape :=
  [("type", .string "object"),
    ("required", .strings ((members.filter (·.required)).map (·.name))),
    ("properties", .object (members.map fun m => (m.name, .object m.shape)))]

/-- The comment of a declaration. -/
def comment : Member := optional "comment" optionalText

/-- The groups of a declaration. -/
def groups : Member := optional "groups" (list text)

/-- The namespace of a declaration. -/
def space : Member := optional "namespace" (defaulted (.string "") text)

/-- The name of a declaration. -/
def name : Member := required "name" text

/-- The kind of a declaration. -/
def kind (k : Kind) : Member := required "kind" (constant k.label)

/-- The shape of an enum item. -/
def enumItem : Shape :=
  record [optional "alias" optionalText, comment, name, required "value" int32]

/-- The shape of a field. -/
def field : Shape := described "Field of a bean." (record [comment, name, required "type" text])

/-- The shape of a table's mode. -/
def mode : Shape :=
  let shape (m : TableMode) (description : String) := described description (constant m.name)
  described "Storage shape of a table." (oneOf [
    shape .map "Rows keyed by a unique index field.",
    shape .list "Ordered rows; the index, when present, is not unique.",
    shape .one "Singleton table holding exactly one row."])

/-- The shape of an enum. -/
def enum : Shape :=
  described "Enum declaration." (record [
    comment,
    optional "flags" (described "Bit-flag enum; items may be combined."
      (defaulted (.bool false) truth)),
    groups,
    required "items" (list (named "EnumItem")),
    kind Kind.enum, name, space])

/-- The shape of a bean. -/
def bean : Shape :=
  described "Bean (record/struct) declaration." (record [
    comment,
    optional "fields" (defaulted (.array []) (list (named "FieldDef"))),
    groups,
    optional "is_abstract" (described "Abstract beans cannot be instantiated by data rows."
      (defaulted (.bool false) truth)),
    kind .bean, name, space,
    optional "parent" (described "Full name of the parent bean for polymorphic hierarchies."
      optionalText)])

/-- The shape of a table. -/
def table : Shape :=
  described "Table declaration." (record [
    comment, groups,
    optional "index" (described "Key field on the row bean." optionalText),
    optional "input" (described "Data source name; defaults to the table name." optionalText),
    kind .table,
    optional "mode" (defaulted (.string TableMode.map.name)
      [("allOf", .array [.object (named "TableMode")])]),
    name, space,
    required "value_type" (described "Full name of the row bean." text)])

/-- The shapes that others refer to. -/
def definitions : List (String × Shape) :=
  [("EnumItem", enumItem), ("FieldDef", field), ("TableMode", mode),
    ("TypeDef", described "A declared type." (oneOf [enum, bean, table]))]

/-- The members of a schema document. -/
def document : Shape :=
  record [
    optional "schema_version" (described "Contract version for this document format."
      (defaulted (.string SchemaDocument.currentVersion) text)),
    required "types" (described "Every declared type, in declaration order."
      (list (named "TypeDef")))]

/-- The whole description. -/
def description : Json :=
  .object ([("$schema", .string "http://json-schema.org/draft-07/schema#"),
    ("title", .string "TypeGraphDocument")] ++
    described "Serialized form of a type graph, as produced by an external schema parser." document ++
    [("definitions", .object (definitions.map fun (name, shape) => (name, .object shape)))])

end Shape

end ConfigTables
