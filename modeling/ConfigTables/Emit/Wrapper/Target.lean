import ConfigTables.Emit.DataTarget
import ConfigTables.Emit.Wrapper.Text

/-!
    The target that generates Rust code: types for all declarations that are exported, and for each
    table a type that loads the rows which the data target exports. -/

namespace ConfigTables.Wrapper

/-- The name of the target, and the style that its identifiers have by default. -/
def targetName : String := "rust-json"

/-- The names of a run: its declarations in the style that its options choose. -/
def namesOf (ctx : Context) : Except RunError Names := do
  return ⟨ctx.graph.types, ← ctx.codeStyle targetName "rust-default"⟩

/-- The ending of the generated files. -/
def suffix : String := "rs"

/-- The path of the code of a table. -/
def tableFile (t : TableDef) : String := fileStem t.fullName ++ "." ++ suffix

/-- The declaration of a table, with the paths that it has in a run. -/
def Names.exportedTable (n : Names) (t : TableDef) : Except SchemaError TableDecl :=
  n.tableDecl (tableFile t) (DataTarget.tableFile t) t

/-- The file with all declarations and the manager. -/
def managerFile (ctx : Context) (n : Names) : Except SchemaError ManagerFile := do
  let enums := ctx.closure.enums.map n.enumDecl
  let beans ← ctx.closure.beans.mapM n.beanDecl
  let tables ← ctx.exportTables.mapM n.exportedTable
  return {
    space := n.style.formatSpace ctx.target.topModule "::"
    target := ctx.target.name
    ident := n.typeIdent ctx.target.manager
    enums, beans, tables }

/-- The text of this file. -/
def managerText (ctx : Context) : Except RunError String := do
  let n ← namesOf ctx
  return ((← (managerFile ctx n).mapError .schema).code n).text

/-- The text of the file of a table. -/
def tableText (ctx : Context) (t : TableDef) : Except RunError String := do
  let n ← namesOf ctx
  return ((← (n.exportedTable t).mapError .schema).code n).text

/-- The target. -/
def target : Target where
  name := targetName
  header := "// @generated by tablegen. Do not edit.\n\n"
  suffix := suffix
  directoryKey := Options.codeDirectory
  manifestBody ctx := .ofExcept (managerText ctx)
  tableBody ctx t := .ofExcept (tableText ctx t)

end ConfigTables.Wrapper
