import ConfigTables.Files.Tree
import ConfigTables.Json.Reader
import ConfigTables.Rows.Convert
import ConfigTables.Rows.Load

/-!
    Rows from files. A table's rows stand as an array in the JSON file of its input name; a second
    directory may hold files of the same names with the rows of patches. -/

namespace ConfigTables

/-- Where the rows of tables are: the directory of the main rows, and perhaps one of patches. -/
structure RowFolders where
  main : String
  patch : Option String

namespace RowFolders

/-- The path of the file with the rows of a table. -/
def path (directory : String) (t : TableDef) : String := Path.join directory (t.inputName ++ ".json")

/-- The paths of the files that may hold rows of a table. -/
def paths (folders : RowFolders) (t : TableDef) : List String :=
  (folders.main :: folders.patch.toList).map (path · t)

/-- Reads the rows of a file. -/
def readFile (files : FileTree) (g : TypeGraph) (t : TableDef) (path : String) :
    Except DataError (List Record) :=
  match files.readText? path with
  | none => .error (.unreadable path)
  | some text =>
    match Json.mapsOfText? text with
    | none => .error (.malformed path)
    | some (.array rows) => g.readRecords t path 0 rows
    | some _ => RowFault.noRows.at path

/-- Reads the rows of a table on both sides. A table without a patch file has no patches. -/
def read (folders : RowFolders) (files : FileTree) (g : TypeGraph) (t : TableDef) :
    Except DataError (List Record × List Record) := do
  let main ← readFile files g t (path folders.main t)
  match folders.patch with
  | none => return (main, [])
  | some directory =>
    let path := path directory t
    if files.isFile path then return (main, ← readFile files g t path)
    else return (main, [])

/-- The folders as a source of rows. -/
def loader (folders : RowFolders) (files : FileTree) (g : TypeGraph) : Loader := fun t =>
  match folders.read files g t with
  | .ok (main, patch) => .rows main patch
  | .error e => .failed e

end RowFolders

end ConfigTables
