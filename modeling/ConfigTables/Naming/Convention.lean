import ConfigTables.Text.Words

/-!
    Spelling conventions. A convention takes the words of a name and writes them its own way, so two
    spellings of the same words come out the same; `asDeclared` keeps a name as it is. -/

namespace ConfigTables

/-- A way to spell a name. -/
inductive Convention where | asDeclared | pascal | camel | snake | screamingSnake
  deriving DecidableEq, Repr

namespace Convention

/-- The word for a convention. -/
def name : Convention → String
  | asDeclared => "none"
  | pascal => "pascal"
  | camel => "camel"
  | snake => "snake"
  | screamingSnake => "screaming-snake"

/-- Every convention. -/
def all : List Convention := [asDeclared, pascal, camel, snake, screamingSnake]

/-- The convention of a word. -/
def ofName? (word : String) : Option Convention := all.find? (·.name = word)

/-- Words that all begin with a capital. -/
def pascalCase (words : List (List Char)) : List Char := words.flatMap Text.capitalWord

/-- Words that begin with a capital, but for the first. -/
def camelCase : List (List Char) → List Char
  | [] => []
  | first :: others => Text.lowerWord first ++ pascalCase others

/-- Words in small letters, joined by underscores. -/
def snakeCase (words : List (List Char)) : List Char := ['_'].intercalate (words.map Text.lowerWord)

/-- Words in capitals, joined by underscores. -/
def screamingCase (words : List (List Char)) : List Char :=
  ['_'].intercalate (words.map Text.upperWord)

/-- A name in the convention. -/
def apply : Convention → String → String
  | asDeclared, name => name
  | pascal, name => String.ofList (pascalCase (Text.nameWords name.toList))
  | camel, name => String.ofList (camelCase (Text.nameWords name.toList))
  | snake, name => String.ofList (snakeCase (Text.nameWords name.toList))
  | screamingSnake, name => String.ofList (screamingCase (Text.nameWords name.toList))

end Convention

/-- The texts between the dots of a full name. -/
def dotted (fullName : String) : List String :=
  (fullName.toList.splitOn '.').map String.ofList

/-- The path, without its ending, of what is generated for a full name: one directory in snake case
for each namespace above it. -/
def fileStem (fullName : String) : String :=
  "/".intercalate ((dotted fullName).map Convention.snake.apply)

end ConfigTables
