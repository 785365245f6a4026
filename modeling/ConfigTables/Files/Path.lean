/-!
    Paths as texts and as their steps. Slashes separate the parts of a path; repeated slashes and
    single dots are parts without a step, except a dot at the start of a relative path. `isInside` says
    that all steps are names, which is what keeps a path below the directory it is taken from. -/

namespace ConfigTables.Path

/-- A step of a path. -/
inductive Component where
  | root
  | current
  | parent
  | name (n : String)
  deriving DecidableEq, Repr

/-- A text between slashes, with the step that it stands for, if any. -/
structure Part where
  text : List Char
  step : Option Component
  deriving DecidableEq

/-- The texts between the slashes. -/
def segments (path : String) : List (List Char) := path.toList.splitOn '/'

/-- The step that a text stands for after a slash. -/
def stepOf (segment : List Char) : Option Component :=
  if segment = [] || segment = ['.'] then none
  else if segment = ['.', '.'] then some .parent
  else some (.name (String.ofList segment))

/-- The step that the first text of a path stands for. -/
def firstStep (absolute : Bool) (segment : List Char) : Option Component :=
  if absolute then some .root else if segment = ['.'] then some .current else stepOf segment

/-- Whether a path starts at the root. -/
def isAbsolute (path : String) : Bool := path.toList.head? = some '/'

/-- The parts of a path. -/
def parts (path : String) : List Part :=
  match segments path with
  | [] => []
  | first :: rest =>
    ⟨first, firstStep (isAbsolute path) first⟩ :: rest.map fun segment => ⟨segment, stepOf segment⟩

/-- The steps of a path. -/
def components (path : String) : List Component := (parts path).filterMap (·.step)

/-- Whether all steps of a path are names. -/
def isInside (path : String) : Bool :=
  (components path).all fun
    | .name _ => true
    | _ => false

/-- Whether a path can only mean a directory, because it ends in a slash or a dot. -/
def endsInDirectory (path : String) : Bool :=
  match (segments path).getLast? with
  | some segment => path ≠ "" && (segment = [] || segment = ['.'])
  | none => false

/-- Whether the last text of a path is a dot, slashes after it aside. -/
def endsInDot (path : String) : Bool :=
  ((segments path).filter (· ≠ [])).getLast? = some ['.']

/-- A path taken from a directory. An absolute path stays what it is. -/
def join (directory path : String) : String :=
  if isAbsolute path then path
  else if directory = "" || directory.toList.getLast? = some '/' then directory ++ path
  else directory ++ "/" ++ path

/-- The name of the file that a path leads to. -/
def fileName? (path : String) : Option String :=
  match (components path).getLast? with
  | some (.name n) => some n
  | _ => none

/-- The path of some parts. -/
def ofParts (parts : List Part) : String :=
  if parts.map (·.step) = [some .root] then "/"
  else String.ofList (['/'].intercalate (parts.map (·.text)))

/-- The parts of a path, last first, without those behind its last step. -/
def fromLastStep (reversed : List Part) : List Part := reversed.dropWhile (·.step.isNone)

/-- For the parts of a path, last first: those of the paths with one step less, two steps less, and so
on. Nothing is above the root. -/
def partsAbove : List Part → List (List Part)
  | [] => []
  | p :: rest =>
    match p.step with
    | none => partsAbove rest
    | some .root => []
    | some _ => fromLastStep rest :: partsAbove rest

/-- The paths of the directories that a path leads through, innermost first. The empty path stands
for the directory that a relative path starts from. -/
def above (path : String) : List String :=
  (partsAbove (parts path).reverse).map fun reversed => ofParts reversed.reverse

/-- The path of the directory of a path. -/
def parent? (path : String) : Option String := (above path).head?

/-- The path beside a path, under its name with something added. -/
def beside? (path suffix : String) : Option String :=
  (fileName? path).map fun name => join ((parent? path).getD "") (name ++ suffix)

/-- The longest path, in bytes. -/
def maxLength : Nat := 4095

/-- Whether a text can be a path at all. -/
def isUsable (path : String) : Bool :=
  path ≠ "" && path.utf8ByteSize ≤ maxLength && !path.toList.contains (Char.ofNat 0)

end ConfigTables.Path
