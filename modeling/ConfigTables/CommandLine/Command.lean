import ConfigTables.CommandLine.Generate
import ConfigTables.Schema.Shape

/-!
    The commands of the program. A command reads and changes files, and comes to a text, to an error,
    or to nothing because it is called in a way that has no meaning. -/

namespace ConfigTables.CommandLine

/-- What a command line comes to. -/
inductive Reply where
  | done (output : String)
  | failed (error : CommandError)
  | misused
  deriving DecidableEq

/-- The number that says to the caller what a command line came to. -/
def Reply.exitCode : Reply → Nat
  | done _ => 0
  | failed _ => 1
  | misused => 2

/-- A line about a target: its name, the ending of its files, and the option for its directory. -/
def targetLine (t : Target) : String := t.name ++ "\t." ++ t.suffix ++ "\t" ++ t.directoryKey ++ "\n"

/-- The text of the command that lists the targets. -/
def targetsText : String := String.join (Registry.standard.values.map targetLine)

/-- Describes schema documents, in a file or in the text of the command. -/
def describe (out : Option String) : FileWork CommandError String :=
  match out with
  | some path => do
    (writeJson path Shape.description).adapt CommandError.output
    return ""
  | none => return Shape.description.fileText

/-- Carries out a command; the text it gives. -/
def perform (stamp : RunStamp) (c : CommandSpec) (given : Given) : FileWork CommandError String :=
  if c.name = targets.name then pure targetsText
  else if c.name = schema.name then describe (given.one? "out")
  else do
    generate stamp (.ofGiven given)
    return ""

/-- Carries out a command line on the files that there are. -/
def run (stamp : RunStamp) (args : List String) (files : FileTree) : Reply × FileTree :=
  match read args with
  | .error .misuse => (.misused, files)
  | .error (.answer text) => (.done text, files)
  | .ok (c, given) =>
    match (perform stamp c given).run.run files with
    | (.ok text, files) => (.done text, files)
    | (.error e, files) => (.failed e, files)

/-- The paths that a command line reads, so far as this can be told from the files that are known. -/
def inputs (args : List String) (files : FileTree) : List String :=
  match read args with
  | .ok (c, given) => if c.name = gen.name then (GenRequest.ofGiven given).inputs files else []
  | .error _ => []

end ConfigTables.CommandLine
