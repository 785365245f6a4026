import ConfigTables.Emit.Target
import ConfigTables.Json.Printer

/-!
    The target that exports data: a file for each table with its rows as a JSON array, in the order
    of their keys, and an index of these files with the number of rows in each. -/

namespace ConfigTables

/-- What the index says of a table. -/
structure IndexEntry where
  name : String
  file : String
  mode : TableMode
  records : Nat
  deriving DecidableEq

namespace DataTarget

/-- The name of the target. -/
def name : String := "json"

/-- The path of the file with the rows of a table. -/
def tableFile (t : TableDef) : String := fileStem t.fullName ++ ".json"

/-- What the index says of the tables. -/
def indexEntries (ctx : Context) : Except DataError (List IndexEntry) :=
  ctx.exportTables.mapM fun t => do
    return ⟨t.fullName, tableFile t, t.mode, (← ctx.exportRecords t).length⟩

/-- An entry of the index as a document. -/
def entryJson (e : IndexEntry) : Json :=
  .object [("name", .string e.name), ("file", .string e.file), ("mode", .string e.mode.name),
    ("records", .nat e.records)]

/-- The index as a document. -/
def indexJson (manager : String) (entries : List IndexEntry) : Json :=
  .object [("manager", .string manager), ("tables", .array (entries.map entryJson))]

/-- The exported rows of a table, in the order of their keys. -/
def rows (ctx : Context) (t : TableDef) : Except DataError (List Record) := do
  Store.sortByKey ctx.graph.types t (← ctx.exportRecords t)

/-- Rows as a document. -/
def rowsJson (records : List Record) : Json := .array (records.map (·.data.toJson))

/-- The text of the index. -/
def indexText (ctx : Context) : Except DataError String := do
  return (indexJson ctx.target.manager (← indexEntries ctx)).fileText

/-- The text of the rows of a table. -/
def rowsText (ctx : Context) (t : TableDef) : Except DataError String := do
  return (rowsJson (← rows ctx t)).fileText

/-- The target. -/
def target : Target where
  name := name
  header := ""
  suffix := "json"
  directoryKey := Options.dataDirectory
  manifestBody ctx := .ofExcept ((indexText ctx).mapError .data)
  tableBody ctx t := .ofExcept ((rowsText ctx t).mapError .data)

end DataTarget

end ConfigTables
