/-!
    Manifests: the files that a target generates, in order. -/

namespace ConfigTables

/-- A generated file: its path below the directory of its target, and its text. -/
structure OutputFile where
  path : String
  content : String
  deriving DecidableEq

/-- The files of a target. -/
structure Manifest where
  target : String
  files : List OutputFile
  deriving DecidableEq

namespace Manifest

/-- The first file of a path. -/
def file? (m : Manifest) (path : String) : Option OutputFile := m.files.find? (·.path = path)

/-- The number of bytes of all files. -/
def bytes (m : Manifest) : Nat := m.files.foldl (fun n f => n + f.content.utf8ByteSize) 0

end Manifest

end ConfigTables
