import ConfigTables.Emit.Context
import ConfigTables.Files.Manifest

/-!
    Targets and their runs. A target generates one file about all tables and one file for each table.
    These are the units of a run: they only read the context, so the order in which they are worked
    off cannot matter, and the result of a run is told by their outcomes in the order of the tables. -/

namespace ConfigTables

/-- What a unit came to. -/
inductive Outcome where
  | text (body : String)
  | failed (error : RunError)
  | panicked

/-- The outcome of a computation that may fail. -/
def Outcome.ofExcept : Except RunError String → Outcome
  | .ok body => text body
  | .error e => failed e

/-- An output format: its name, the text before every file, the ending of its files, the option that
names its directory, the paths of its files and the texts it generates. A target may choose its paths;
by default they come from full names. -/
structure Target where
  name : String
  header : String
  suffix : String
  directoryKey : String
  fileName : String → String := fun fullName => fileStem fullName ++ "." ++ suffix
  manifestFile : Context → String := fun ctx => fileName ctx.target.manager
  tableFile : TableDef → String := fun t => fileName t.fullName
  manifestBody : Context → Outcome
  tableBody : Context → TableDef → Outcome

/-- One file of a run. -/
inductive GenUnit where
  | manifest
  | table (t : TableDef)
  deriving DecidableEq

/-- The word for a unit. -/
def GenUnit.label : GenUnit → String
  | manifest => "manifest"
  | table t => t.fullName

namespace Target

/-- The path of a unit's file. -/
def unitPath (target : Target) (ctx : Context) : GenUnit → String
  | .manifest => target.manifestFile ctx
  | .table t => target.tableFile t

/-- What a unit comes to. -/
def unitBody (target : Target) (ctx : Context) : GenUnit → Outcome
  | .manifest => target.manifestBody ctx
  | .table t => target.tableBody ctx t

/-- The units of a run, in order. -/
def units (ctx : Context) : List GenUnit := .manifest :: ctx.exportTables.map .table

/-- The file that an outcome of a unit gives, or why there is none. -/
def outcomeFile (target : Target) (ctx : Context) (u : GenUnit) : Outcome → Except RunError OutputFile
  | .text body => .ok ⟨target.unitPath ctx u, target.header ++ body⟩
  | .failed e => .error (.unitFailed u.label e)
  | .panicked => .error (.unitPanicked u.label)

/-- The file of a unit, or why there is none. -/
def unitFile (target : Target) (ctx : Context) (u : GenUnit) : Except RunError OutputFile :=
  target.outcomeFile ctx u (target.unitBody ctx u)

/-- The first clash of two paths among files with their units; `before` holds the ones before. -/
def pathClash? (before : List (GenUnit × OutputFile)) :
    List (GenUnit × OutputFile) → Option RunError
  | [] => none
  | (u, f) :: rest =>
    match before.find? (·.2.path = f.path) with
    | some (first, _) => some (.duplicatePath f.path first.label u.label)
    | none => pathClash? (before ++ [(u, f)]) rest

/-- The files of some units, unless two of them have one path. -/
def distinctFiles (units : List GenUnit) (files : List OutputFile) :
    Except RunError (List OutputFile) :=
  match pathClash? [] (units.zip files) with
  | some e => .error e
  | none => .ok files

/-- The files of a run: all of them, or the failure of the first unit that failed, or the first clash
of two paths. -/
def run (target : Target) (ctx : Context) : Except RunError (List OutputFile) := do
  distinctFiles (units ctx) (← (units ctx).mapM (target.unitFile ctx))

/-- The manifest with the files of a run after its own. -/
def runInto (target : Target) (ctx : Context) (m : Manifest) : Except RunError Manifest := do
  return { m with files := m.files ++ (← target.run ctx) }

end Target

/-- The targets that can be chosen, by name. -/
abbrev Registry := NameMap Target

namespace Registry

/-- The registry with one more target; its name has to be new. -/
def register (r : Registry) (target : Target) : Except RunError Registry :=
  if r.contains target.name then .error (.duplicateTarget target.name)
  else .ok (r.insert target.name target)

/-- The target of a name. -/
def target (r : Registry) (name : String) : Except RunError Target :=
  match r.get? name with
  | some target => .ok target
  | none => .error (.unknownTarget name)

/-- Runs the targets of some names, each into a manifest of its own. -/
def runAll (r : Registry) (ctx : Context) (names : List String) : Except RunError (List Manifest) :=
  names.mapM fun name => do
    let target ← r.target name
    target.runInto ctx ⟨target.name, []⟩

end Registry

end ConfigTables
