import ConfigTables.Files.Manifest
import ConfigTables.Files.Tree
import ConfigTables.Json.Printer

/-!
    Writing files so that a reader never sees half of one: the content goes to a file beside the final
    one, which then takes its place. The files of a manifest are written in order below one directory.
    What was written before a failure stays. -/

namespace ConfigTables

/-- Why a file could not be written. -/
inductive OutputError where
  | io (path : String)
  | invalidPath (path : String)
  deriving DecidableEq

/-- The whole text of an error. -/
def OutputError.message : OutputError → String
  | io path => "io error: cannot write " ++ path
  | invalidPath path => "invalid output path: " ++ path

/-- Work on files that may fail, and keeps what it did until then. -/
abbrev FileWork (ε α : Type) := ExceptT ε (StateM FileTree) α

namespace FileTree

/-- The tree with a file where a path leads, unless there is a directory. -/
def writeFile? (t : FileTree) (path : String) (content : ByteArray) : Option FileTree := do
  let place ← t.place? path
  if Path.endsInDirectory path || t.isDirectoryAt place then none else t.put? place (.file content)

/-- The tree with a file moved from one path to another, in place of a file there. -/
def moveFile? (t : FileTree) (source target : String) : Option FileTree := do
  let old ← t.place? source
  let new ← t.place? target
  if Path.endsInDirectory target || t.isDirectoryAt new then none
  else
    let n ← t.root.get? old
    { t with root := t.root.remove old }.put? new n

/-- The tree with an empty file where a path leads, unless there is a file already. -/
def touch? (t : FileTree) (path : String) : Option FileTree := do
  let place ← t.place? path
  match t.root.get? place with
  | some (.file _) => if Path.endsInDirectory path then none else some t
  | _ => t.writeFile? path .empty

end FileTree

/-- A making of directories, or the failure to make room for a path. -/
def changeDirectories (path : String) (make : FileTree → FileTree × Bool) :
    FileWork OutputError Unit := do
  let (made, done) := make (← get)
  set made
  if !done then throw (.io path)

/-- A change of the files, or the failure to write a path. -/
def changeFiles (path : String) (change : FileTree → Option FileTree) :
    FileWork OutputError Unit := do
  match change (← get) with
  | some t => set t
  | none => throw (.io path)

/-- Writes a file by way of a temporary one beside it. -/
def writeBytes (path : String) (content : ByteArray) : FileWork OutputError Unit := do
  changeDirectories path (·.makeRoom path)
  match Path.beside? path ".tmp" with
  | none => throw (.invalidPath path)
  | some temporary =>
    changeFiles path (·.writeFile? temporary content)
    changeFiles path (·.moveFile? temporary path)

/-- Makes sure that there is a file to which more can be written. -/
def touch (path : String) : FileWork OutputError Unit := do
  changeDirectories path (·.makeRoom path)
  changeFiles path (·.touch? path)

/-- Writes a document to a file. -/
def writeJson (path : String) (j : Json) : FileWork OutputError Unit :=
  writeBytes path j.fileText.toUTF8

/-- Writes files below a directory, in order; the paths of the files written. -/
def writeManifest (directory : String) : List OutputFile → FileWork OutputError (List String)
  | [] => pure []
  | f :: rest =>
    if Path.isInside f.path then do
      let path := Path.join directory f.path
      writeBytes path f.content.toUTF8
      return path :: (← writeManifest directory rest)
    else throw (.invalidPath f.path)

end ConfigTables
