import ConfigTables.Naming.Convention
import ConfigTables.Schema.Definition

/-!
    Filters: the named changes of a text that a template can ask for. -/

namespace ConfigTables

/-- A change of a text. -/
inductive Filter where
  | spelled (c : Convention)
  | fullName
  deriving DecidableEq

namespace Filter

/-- The filter of a name. -/
def ofName? : String → Option Filter
  | "pascal" => some (.spelled .pascal)
  | "camel" => some (.spelled .camel)
  | "snake" => some (.spelled .snake)
  | "screaming_snake" => some (.spelled .screamingSnake)
  | "full_name" => some .fullName
  | _ => none

/-- A text changed by a filter; a full name takes the text as the namespace of a name. -/
def apply (text name : String) : Filter → String
  | spelled c => c.apply text
  | fullName => qualify text name

end Filter

end ConfigTables
