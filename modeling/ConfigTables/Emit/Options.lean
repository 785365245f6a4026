import ConfigTables.NameMap
import ConfigTables.Text.Blank

/-!
    Options of a run. An option is looked up for a family, which is the name of a target: the option
    qualified by the family counts before the one that holds for all. -/

namespace ConfigTables

/-- Options by their full names. -/
abbrev Options := NameMap String

/-- What can go wrong with options. -/
inductive OptionError where
  | missing (name : String)
  | malformed (assignment : String)
  deriving DecidableEq

/-- The whole text of an error. -/
def OptionError.message : OptionError → String
  | missing name => "missing required option '" ++ name ++ "'"
  | malformed assignment => "invalid option '" ++ assignment ++ "': expected family.key=value"

namespace Options

/-- The option for the directory of generated code. -/
def codeDirectory : String := "outputCodeDir"

/-- The option for the directory of exported data. -/
def dataDirectory : String := "outputDataDir"

/-- The option for the code style. -/
def codeStyle : String := "codeStyle"

/-- The name and the value of an assignment: what stands before and after its first equals sign,
without the blanks around. The name may not be empty. -/
def assignment? (text : String) : Option (String × String) :=
  let name := Text.trim (text.toList.takeWhile (· ≠ '='))
  if '=' ∈ text.toList && name ≠ [] then
    some (String.ofList name,
      String.ofList (Text.trim ((text.toList.dropWhile (· ≠ '=')).drop 1)))
  else none

/-- The options with one more assignment. -/
def assign (o : Options) (text : String) : Except OptionError Options :=
  match assignment? text with
  | some (name, value) => .ok (o.insert name value)
  | none => .error (.malformed text)

/-- The full name of an option of a family. -/
def qualified (family key : String) : String := if family = "" then key else family ++ "." ++ key

/-- The value of an option for a family, or for all. -/
def find? (o : Options) (family key : String) : Option String :=
  match o.get? (qualified family key) with
  | some value => some value
  | none => o.get? key

/-- The value of an option, which may be required. -/
def lookup (o : Options) (family key : String) (required : Bool) :
    Except OptionError (Option String) :=
  match o.find? family key with
  | some value => .ok (some value)
  | none => if required then .error (.missing (qualified family key)) else .ok none

/-- The value of an option, or another one. -/
def findD (o : Options) (family key default : String) : String := (o.find? family key).getD default

end Options

end ConfigTables
