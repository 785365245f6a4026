import ConfigTables.Naming.Style
import ConfigTables.Schema.Declarations

/-!
    Identifiers of the generated Rust code. Types are named after full names, so declarations of one
    name in two namespaces stay apart; everything that follows the style is kept clear of the
    keywords of the language by an underscore. A bean with children has two types: its own struct,
    and an enum over all instances whose name ends in `Kind`. -/

namespace ConfigTables.Wrapper

/-- The words that cannot be identifiers. -/
def keywords : List String :=
  ["as", "async", "await", "box", "break", "const", "continue", "crate", "dyn", "else", "enum",
    "extern", "false", "fn", "for", "if", "impl", "in", "let", "loop", "match", "mod", "move", "mut",
    "pub", "ref", "return", "self", "static", "struct", "super", "trait", "true", "type", "unsafe",
    "use", "where", "while", "yield"]

/-- An identifier that is no keyword. -/
def clearOfKeywords (ident : String) : String :=
  if ident ∈ keywords then ident ++ "_" else ident

/-- What identifiers are made from: the declarations, and the style. -/
structure Names where
  types : Declarations
  style : Style

namespace Names

/-- A full name with underscores for its dots. -/
def flatName (fullName : String) : String :=
  String.ofList (fullName.toList.map fun c => if c = '.' then '_' else c)

/-- The type of a full name. -/
def typeIdent (n : Names) (fullName : String) : String := n.style.typeName.apply (flatName fullName)

/-- Whether values of a bean can be instances of other beans. -/
def hasKinds (n : Names) (b : BeanDef) : Bool := !(n.types.children b.fullName).isEmpty

/-- The struct of a bean. -/
def structIdent (n : Names) (b : BeanDef) : String := n.typeIdent b.fullName

/-- The type of the values of a bean: its struct, or the enum over its instances. -/
def beanIdent (n : Names) (b : BeanDef) : String :=
  if n.hasKinds b then n.structIdent b ++ "Kind" else n.structIdent b

/-- The field of a struct. -/
def fieldIdent (n : Names) (name : String) : String := clearOfKeywords (n.style.field.apply name)

/-- The method that gives a field. -/
def methodIdent (n : Names) (name : String) : String := clearOfKeywords (n.style.method.apply name)

/-- The field of the manager that holds a table. -/
def memberIdent (n : Names) (fullName : String) : String :=
  clearOfKeywords ("__".intercalate ((dotted fullName).map n.style.property.apply))

/-- The module of a table. -/
def moduleIdent (fullName : String) : String :=
  "__".intercalate ((dotted fullName).map Convention.snake.apply)

/-- The variant of an enum item; one that would start with a digit gets a letter in front. -/
def itemIdent (n : Names) (name : String) : String :=
  let ident := n.style.item.apply name
  if (ident.toList.head?.map Char.isDigit).getD false then "V" ++ ident else ident

end Names

end ConfigTables.Wrapper
