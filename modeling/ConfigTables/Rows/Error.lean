import ConfigTables.Json.Printer
import ConfigTables.Schema.Error

/-!
    Why rows are refused, or the data of a table cannot be used. -/

namespace ConfigTables

/-- A number or a text in a row that is not what a field holds. -/
inductive Given where
  | number (n : JsonNumber)
  | text (s : String)
  deriving DecidableEq

/-- What was given, texts in quotes. -/
def Given.shown : Given → String
  | number n => n.text
  | text s => "'" ++ s ++ "'"

/-- What a place in a row has to hold. -/
inductive Expected where
  | bool
  | integer
  | number
  | string
  | datetime
  | item (enum : String)
  | objectOf (bean : String)
  | arrayFor (type : TypeExpr)
  | objectFor (type : TypeExpr)
  deriving DecidableEq

/-- The words for what a place has to hold. -/
def Expected.words : Expected → String
  | bool => "bool"
  | integer => "integer"
  | number => "number"
  | string => "string"
  | datetime => "datetime"
  | item enum => enum ++ " item"
  | objectOf bean => "object for " ++ bean
  | arrayFor type => "array for " ++ type.text
  | objectFor type => "object for " ++ type.text

/-- What can be wrong with a row. -/
inductive RowFault where
  | expected (what : Expected)
  | missing (type : TypeExpr)
  | notBool (given : Given)
  | notInteger (given : Given)
  | notNumber (given : Given)
  | notDatetime (given : Given)
  | overflowsInt (i : Int)
  | notEnumValue (value : Int) (enum : String)
  | notEnumItem (item enum : String)
  | notSubtype (typeName bean : String)
  | abstractBean (bean : String)
  | unknownField (field bean : String)
  | badEntry
  | badTags
  | badTag
  | noRows
  | noKey (field : String)
  | badKey (field kind : String)
  deriving DecidableEq

/-- The words for a fault of a row. -/
def RowFault.message : RowFault → String
  | expected what => "expected " ++ what.words
  | missing type => "missing value of type " ++ type.text
  | notBool given => given.shown ++ " is not a bool"
  | notInteger given => given.shown ++ " is not an integer"
  | notNumber given => given.shown ++ " is not a number"
  | notDatetime given => given.shown ++ " is not a datetime"
  | overflowsInt i => toString i ++ " overflows int"
  | notEnumValue value enum => toString value ++ " is not a value of " ++ enum
  | notEnumItem item enum => "'" ++ item ++ "' is not an item of " ++ enum
  | notSubtype typeName bean => typeName ++ " is not " ++ bean ++ " or one of its subtypes"
  | abstractBean bean => bean ++ " is abstract; set $type"
  | unknownField field bean => "unknown field '" ++ field ++ "' for " ++ bean
  | badEntry => "map entries must be [key, value] pairs"
  | badTags => "tags must be a string or an array"
  | badTag => "tags must be strings"
  | noRows => "expected a JSON array of rows"
  | noKey field => "missing key field '" ++ field ++ "'"
  | badKey field kind => "key field '" ++ field ++ "' holds a " ++ kind ++ " value"

/-- The two sources of the rows of a table. -/
inductive Side where | main | patch
  deriving DecidableEq

/-- The word for a source. -/
def Side.name : Side → String
  | main => "main"
  | patch => "patch"

/-- What the type graph rules out for converted rows, and what a source of rows may break. -/
inductive Invariant where
  | noIndex (table : String)
  | keyType (table field : String) (declared : TypeExpr) (held : String)
  | loaderPanicked (table : String)
  | other (text : String)
  deriving DecidableEq

/-- The words for a broken invariant. -/
def Invariant.message : Invariant → String
  | noIndex table => "map table " ++ table ++ " has no index"
  | keyType table field declared held =>
    "table " ++ table ++ " key '" ++ field ++ "' declared " ++ declared.text ++
      " but record holds " ++ held
  | loaderPanicked table => "loader panicked on table " ++ table
  | other text => text

/-- What can go wrong with the data of a table. -/
inductive DataError where
  | singleton (table : String) (count : Nat)
  | invariant (broken : Invariant)
  | notRegistered (table : String)
  | duplicateKey (table key : String) (side : Side)
  | patchUnsupported (table : String)
  | invalidRecord (location : String) (fault : RowFault)
  | schema (error : SchemaError)
  | unreadable (path : String)
  | malformed (path : String)
  deriving DecidableEq

/-- The whole text of an error. -/
def DataError.message : DataError → String
  | singleton table count =>
    "table " ++ table ++ " is a singleton table (mode=one) but exports " ++ toString count ++
      " records"
  | invariant broken => "internal invariant violated: " ++ broken.message
  | notRegistered table => "table not registered: " ++ table
  | duplicateKey table key side =>
    "table " ++ table ++ ": duplicate key " ++ key ++ " in " ++ side.name ++ " records"
  | patchUnsupported table =>
    "table " ++ table ++ " is a list table and does not accept patch records"
  | invalidRecord location fault => "invalid record at " ++ location ++ ": " ++ fault.message
  | schema error => "schema error: " ++ error.message
  | unreadable path => "io error: cannot read " ++ path
  | malformed path => "json error: malformed document in " ++ path

end ConfigTables
