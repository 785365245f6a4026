import ConfigTables.Emit.Error
import ConfigTables.Journal.Entry

/-!
    Why a command fails. -/

namespace ConfigTables

/-- Settings that a run cannot do without, or that it cannot do anything with. -/
inductive SettingsFault where
  | noSchema
  | noInputDirectory
  | noCodeTargets
  | noOutputDirectory (target key : String)
  deriving DecidableEq

/-- The text of a fault. -/
def SettingsFault.message : SettingsFault → String
  | noSchema => "no schema document: set `schema` or pass --schema"
  | noInputDirectory => "no data directory: set [data].input_dir or pass --input-dir"
  | noCodeTargets => "no code targets: set [target].code_targets or pass --code-target"
  | noOutputDirectory target key =>
    "no output directory for code target '" ++ target ++ "': set option " ++ target ++ "." ++ key ++
      " or pass --out"

/-- The text of an error. -/
def JournalError.message : JournalError → String
  | io path => "io error: cannot write " ++ path
  | output error => "output error: " ++ error.message

/-- What can go wrong in a command. -/
inductive CommandError where
  | journal (error : JournalError)
  | output (error : OutputError)
  | schema (error : SchemaError)
  | run (error : RunError)
  | unreadable (path : String)
  | malformed (path : String)
  | badSettings (path : String)
  | settings (fault : SettingsFault)
  deriving DecidableEq

/-- The whole text of an error. -/
def CommandError.message : CommandError → String
  | journal error => "registry error: " ++ error.message
  | output error => "output error: " ++ error.message
  | schema error => "schema error: " ++ error.message
  | run error => "generation error: " ++ error.message
  | unreadable path => "io error: cannot read " ++ path
  | malformed path => "json error: " ++ path ++ " holds no schema document"
  | badSettings path => "config error: " ++ path ++ " holds no settings"
  | settings fault => "invalid configuration: " ++ fault.message

end ConfigTables
