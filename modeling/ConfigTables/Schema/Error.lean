import ConfigTables.Schema.Definition
import ConfigTables.Schema.TypeExpr.Reader

/-!
    Why a schema is refused, or a selection from it cannot be exported. -/

namespace ConfigTables

/-- What can be wrong with a schema. -/
inductive SchemaError where
  | duplicateType (name : String)
  | parentNotBean (bean parent : String)
  | cyclicParents (bean : String)
  | duplicateItem (enum item : String)
  | duplicateField (bean field : String)
  | unknownFieldType (name bean field : String)
  | badMapKey (bean field : String)
  | valueNotBean (table value : String)
  | indexRequired (table : String)
  | unknownIndex (bean index : String)
  | unknownType (name : String)
  | nameCollision (name : String) (existing incoming : Kind)
  | badTypeExpr (error : TypeExprError)
  deriving DecidableEq

/-- What the schema breaks, for the errors that are about its inner consistency. -/
def SchemaError.detail : SchemaError → String
  | duplicateType name => "duplicate type name: " ++ name
  | parentNotBean bean parent => "parent of " ++ bean ++ " is not a declared bean: " ++ parent
  | cyclicParents bean => "cyclic bean inheritance involving " ++ bean
  | duplicateItem enum item => "duplicate enum item: " ++ enum ++ "." ++ item
  | duplicateField bean field => "duplicate field name: " ++ bean ++ "." ++ field
  | unknownFieldType name bean field => name ++ " (field " ++ bean ++ "." ++ field ++ ")"
  | badMapKey bean field => "map key of " ++ bean ++ "." ++ field ++ " must be a primitive or enum"
  | valueNotBean table value => "table " ++ table ++ " value type is not a bean: " ++ value
  | indexRequired table => "map table " ++ table ++ " requires an index field"
  | unknownIndex bean index => "index field not found: " ++ bean ++ "." ++ index
  | unknownType name => name
  | nameCollision name existing incoming =>
    "'" ++ name ++ "' is both a " ++ existing.label ++ " and a " ++ incoming.label
  | badTypeExpr e => "'" ++ e.expr ++ "': " ++ e.fault.message

/-- The whole text of an error. -/
def SchemaError.message (e : SchemaError) : String :=
  match e with
  | unknownType _ | unknownFieldType .. => "unknown type: " ++ e.detail
  | nameCollision .. => "export name collision: " ++ e.detail
  | badTypeExpr _ => "invalid type expression " ++ e.detail
  | _ => "invalid schema: " ++ e.detail

end ConfigTables
