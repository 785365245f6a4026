/-!
    What can be written on the command line: the commands, and the options of each. -/

namespace ConfigTables.CommandLine

/-- What an option takes: nothing, a path or a text. A path is never empty. -/
inductive ValueKind where | none | path | text
  deriving DecidableEq

/-- An option. One that is not repeatable can be given only once. -/
structure OptionSpec where
  long : String
  short : Option Char
  value : ValueKind
  placeholder : String
  repeatable : Bool
  about : String
  deriving DecidableEq

/-- A command with its options. -/
structure CommandSpec where
  name : String
  about : String
  options : List OptionSpec
  deriving DecidableEq

/-- An option that takes nothing. -/
def flag (long : String) (short : Option Char) (about : String) : OptionSpec :=
  ⟨long, short, .none, "", false, about⟩

/-- An option for a path. -/
def path (long placeholder about : String) : OptionSpec :=
  ⟨long, none, .path, placeholder, false, about⟩

/-- An option for a text that can be given more than once. -/
def texts (long : String) (short : Option Char) (placeholder about : String) : OptionSpec :=
  ⟨long, short, .text, placeholder, true, about⟩

/-- The option that every command has. -/
def help : OptionSpec := flag "help" (some 'h') "Print help"

/-- The option for the version of the program. -/
def version : OptionSpec := flag "version" (some 'V') "Print version"

/-- The command that generates. -/
def gen : CommandSpec where
  name := "gen"
  about := "Generate code and data for the configured code targets"
  options := [
    { path "config" "CONFIG" "Config file; optional when it is the default name" with
      short := some 'c' },
    path "schema" "SCHEMA" "Type graph document (overrides `schema` in the config file)",
    ⟨"target", none, .text, "TARGET", false, "Target name (overrides `[target].name`)"⟩,
    texts "code-target" (some 't') "NAME"
      "Code targets to run (replaces `[target].code_targets`)",
    texts "group" none "GROUP" "Additional enabled group",
    path "input-dir" "INPUT_DIR" "Table data directory",
    path "patch-dir" "PATCH_DIR" "Patch data directory",
    texts "include-tag" none "TAG" "Additional include tag",
    texts "exclude-tag" none "TAG" "Additional exclude tag",
    texts "option" (some 'x') "FAMILY.KEY=VALUE" "Generator option `family.key=value`",
    path "out" "OUT" "Fallback output root; each target writes to `<out>/<target>`",
    path "run-dir" "RUN_DIR" "Record the run under this directory",
    path "log-file" "LOG_FILE" "Append JSON logs to this file",
    flag "dry-run" none "Generate everything but write no files",
    help]

/-- The command that lists the targets. -/
def targets : CommandSpec := ⟨"targets", "List the available code targets", [help]⟩

/-- The command that describes schema documents. -/
def schema : CommandSpec where
  name := "schema"
  about := "Print the JSON Schema of the type graph document"
  options := [path "out" "OUT" "Write the schema to a file instead of stdout", help]

/-- The commands, but for the one that explains the others. -/
def commands : List CommandSpec := [gen, targets, schema]

/-- The name of the program. -/
def program : String := "tablegen"

/-- The name and the version of the program. -/
def versionText : String := program ++ " 0.1.0\n"

/-- What the program is for. -/
def about : String := "Config table code generator"

/-- The command that explains the others. -/
def helpCommand : String := "help"

/-- What it is for. -/
def helpCommandAbout : String := "Print this message or the help of the given subcommand(s)"

end ConfigTables.CommandLine
