import ConfigTables.Naming.Convention

/-!
    Code styles: which convention each kind of identifier is spelled in. -/

namespace ConfigTables

/-- A convention for each kind of identifier. -/
structure Style where
  name : String
  space : Convention
  typeName : Convention
  method : Convention
  property : Convention
  field : Convention
  item : Convention
  deriving DecidableEq, Repr

namespace Style

/-- The style that keeps every name as declared. -/
def plain : Style :=
  ⟨"none", .asDeclared, .asDeclared, .asDeclared, .asDeclared, .asDeclared, .asDeclared⟩

/-- The style of languages that capitalise all but fields. -/
def capitalised : Style :=
  ⟨"csharp-default", .pascal, .pascal, .pascal, .pascal, .camel, .asDeclared⟩

/-- The style of languages that capitalise types only. -/
def mixed : Style := ⟨"java-default", .asDeclared, .pascal, .camel, .camel, .camel, .asDeclared⟩

/-- The style of languages that write all but types in snake case. -/
def underscored : Style := ⟨"rust-default", .snake, .pascal, .snake, .snake, .snake, .pascal⟩

/-- The styles that can be chosen. -/
def all : List Style := [plain, capitalised, mixed, underscored]

/-- The style of a name. -/
def ofName? (name : String) : Option Style := all.find? (·.name = name)

/-- A dotted namespace, segment by segment, without the empty ones. -/
def formatSpace (s : Style) (space separator : String) : String :=
  separator.intercalate (((dotted space).filter (· ≠ "")).map s.space.apply)

end Style

end ConfigTables
