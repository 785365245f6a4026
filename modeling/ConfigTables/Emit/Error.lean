import ConfigTables.Emit.Options
import ConfigTables.Rows.Error

/-!
    Why a run fails. A failure of one unit of a target keeps the cause inside it. -/

namespace ConfigTables

/-- What can go wrong in a run. -/
inductive RunError where
  | option (error : OptionError)
  | unknownTarget (name : String)
  | duplicateTarget (name : String)
  | unknownStyle (name : String)
  | unitFailed (label : String) (cause : RunError)
  | unitPanicked (label : String)
  | duplicatePath (path first second : String)
  | schema (error : SchemaError)
  | data (error : DataError)
  deriving DecidableEq

/-- The whole text of an error. -/
def RunError.message : RunError → String
  | option error => error.message
  | unknownTarget name => "unknown code target: " ++ name
  | duplicateTarget name => "code target already registered: " ++ name
  | unknownStyle name => "unknown code style: " ++ name
  | unitFailed label cause => "generation unit '" ++ label ++ "' failed: " ++ cause.message
  | unitPanicked label => "generation unit '" ++ label ++ "' panicked"
  | duplicatePath path first second =>
    "units '" ++ first ++ "' and '" ++ second ++ "' both write '" ++ path ++ "'"
  | schema error => "schema error: " ++ error.message
  | data error => "data error: " ++ error.message

end ConfigTables
