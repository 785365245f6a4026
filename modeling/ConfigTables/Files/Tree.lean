import ConfigTables.Files.Path

/-!
    Files and directories as a value. A node is a file or a directory of nodes, so a file always
    stands in a directory and no two nodes have one place. A place is the list of names that lead to
    it from the root. -/

namespace ConfigTables

/-- A file with its bytes, or a directory with its entries. -/
inductive Node where
  | file (content : ByteArray)
  | directory (entries : List (String × Node))

/-- The names from the root to a node. -/
abbrev Place := List String

namespace Node

/-- The entry of a name. -/
def child? (name : String) (entries : List (String × Node)) : Option Node :=
  (entries.find? (·.1 = name)).map (·.2)

/-- The entries with a node under a name, instead of an earlier one. -/
def setEntry (name : String) (n : Node) : List (String × Node) → List (String × Node)
  | [] => [(name, n)]
  | entry :: rest =>
    if entry.1 = name then (name, n) :: rest else entry :: setEntry name n rest

/-- The node at a place. -/
def get? : Node → Place → Option Node
  | n, [] => some n
  | file _, _ :: _ => none
  | directory entries, name :: rest => (child? name entries).bind (get? · rest)

/-- Puts a node at a place, instead of what is there. The directory of the place has to exist. -/
def put? : Node → Place → Node → Option Node
  | _, [], new => some new
  | file _, _ :: _, _ => none
  | directory entries, [name], new => some (directory (setEntry name new entries))
  | directory entries, name :: rest, new =>
    match child? name entries with
    | none => none
    | some child => (put? child rest new).map fun child => directory (setEntry name child entries)

/-- Takes away what is at a place. -/
def remove : Node → Place → Node
  | n, [] => n
  | file content, _ :: _ => file content
  | directory entries, [name] => directory (entries.filter (·.1 ≠ name))
  | directory entries, name :: rest =>
    match child? name entries with
    | none => directory entries
    | some child => directory (setEntry name (remove child rest) entries)

/-- Whether a node is a directory. -/
def isDirectory : Node → Bool
  | file _ => false
  | directory _ => true

mutual

/-- The files below a node, each with its place. -/
def files : Node → List (Place × ByteArray)
  | file content => [([], content)]
  | directory entries => entryFiles entries

/-- The files below some entries. -/
def entryFiles : List (String × Node) → List (Place × ByteArray)
  | [] => []
  | (name, n) :: rest => (files n).map (fun f => (name :: f.1, f.2)) ++ entryFiles rest

end

end Node

/-- All files, and the directory that relative paths start from. -/
structure FileTree where
  root : Node
  workingDirectory : Place

namespace FileTree

/-- Why a path leads nowhere: a directory on the way is missing, or the way is barred by a file or by
a name or path that nothing can have. -/
inductive PathFault where | missing | barred
  deriving DecidableEq

/-- The longest name of a file, in bytes. -/
def maxNameLength : Nat := 255

/-- Whether a place holds a directory. -/
def isDirectoryAt (t : FileTree) (place : Place) : Bool :=
  ((t.root.get? place).map Node.isDirectory).getD false

/-- Goes through a place, which has to hold a directory. -/
def enter (t : FileTree) (place : Place) : Except PathFault Unit :=
  match t.root.get? place with
  | some (.directory _) => .ok ()
  | some (.file _) => .error .barred
  | none => .error .missing

/-- The place that some steps lead to from a place. Every step but the last has to end at a
directory; what the last one leads to need not exist. -/
def walk (t : FileTree) (place : Place) : List Path.Component → Except PathFault Place
  | [] => .ok place
  | .root :: rest => t.walk [] rest
  | .current :: rest => t.walk place rest
  | .parent :: rest => do
    t.enter place
    t.walk place.dropLast rest
  | .name n :: rest => do
    t.enter place
    if n.utf8ByteSize ≤ maxNameLength then t.walk (place ++ [n]) rest else .error .barred

/-- The place that a path leads to. -/
def locate (t : FileTree) (path : String) : Except PathFault Place :=
  if Path.isUsable path then t.walk t.workingDirectory (Path.components path) else .error .barred

/-- The place that a path leads to, if it leads anywhere. -/
def place? (t : FileTree) (path : String) : Option Place := (t.locate path).toOption

/-- The node that a path leads to. -/
def node? (t : FileTree) (path : String) : Option Node :=
  ((t.place? path).bind t.root.get?).filter fun n =>
    n.isDirectory || !Path.endsInDirectory path

/-- Whether a path leads to something. -/
def pathExists (t : FileTree) (path : String) : Bool := (t.node? path).isSome

/-- Whether a path leads to a file. -/
def isFile (t : FileTree) (path : String) : Bool :=
  match t.node? path with
  | some (.file _) => true
  | _ => false

/-- Whether a path leads to a directory. -/
def isDirectory (t : FileTree) (path : String) : Bool :=
  ((t.node? path).map Node.isDirectory).getD false

/-- The text of the file that a path leads to, if there is one and its bytes are a text. -/
def readText? (t : FileTree) (path : String) : Option String :=
  match t.node? path with
  | some (.file content) => String.fromUTF8? content
  | _ => none

/-- The tree with a node at a place, unless the directory of the place is missing. -/
def put? (t : FileTree) (place : Place) (n : Node) : Option FileTree :=
  (t.root.put? place n).map fun root => { t with root }

/-- The tree with a directory where a path leads, if nothing is there. A dot behind a missing directory
does not make it. -/
def makeDirectory (t : FileTree) (path : String) : Except PathFault FileTree := do
  let place ← t.locate path
  if Path.endsInDot path then
    t.enter place
    .error .barred
  else if (t.root.get? place).isSome then .error .barred
  else
    match t.put? place (.directory []) with
    | some made => .ok made
    | none => .error .barred

/-- Makes the first of some directories, each of which stands in the next, and those of the others
that are missing. The tree keeps those made before one that cannot be made. -/
def makeChain (t : FileTree) : List String → FileTree × Bool
  | [] => (t, false)
  | path :: above =>
    if path = "" then (t, true)
    else
      match t.makeDirectory path with
      | .ok made => (made, true)
      | .error .barred => (t, t.isDirectory path)
      | .error .missing =>
        match t.makeChain above with
        | (t, false) => (t, false)
        | (t, true) =>
          match t.makeDirectory path with
          | .ok made => (made, true)
          | .error _ => (t, t.isDirectory path)

/-- Makes a directory, and those it stands in, where they are missing. -/
def makeDirectories (t : FileTree) (path : String) : FileTree × Bool :=
  t.makeChain (path :: Path.above path)

/-- Makes the directories that a path leads through, where they are missing. -/
def makeRoom (t : FileTree) (path : String) : FileTree × Bool :=
  match Path.parent? path with
  | none => (t, true)
  | some directory => t.makeDirectories directory

/-- The tree with no files but the working directory. -/
def empty (workingDirectory : Place) : FileTree :=
  ⟨workingDirectory.foldr (fun name n => .directory [(name, n)]) (.directory []), workingDirectory⟩

/-- The tree with a node at a path, in directories made for it, unless it cannot be put there. -/
def add (t : FileTree) (path : String) (n : Node) : FileTree :=
  let (made, _) := t.makeRoom path
  ((made.place? path).bind fun place => made.put? place n).getD made

/-- The tree of some files, at paths from the working directory. -/
def ofFiles (workingDirectory : Place) (files : List (String × ByteArray)) : FileTree :=
  files.foldl (fun t (path, content) => t.add path (.file content)) (empty workingDirectory)

/-- The files below the working directory, each with its path from there. -/
def localFiles (t : FileTree) : List (String × ByteArray) :=
  match t.root.get? t.workingDirectory with
  | some n => n.files.map fun (place, content) => ("/".intercalate place, content)
  | none => []

end FileTree

end ConfigTables
