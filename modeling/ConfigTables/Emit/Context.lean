import ConfigTables.Emit.Error
import ConfigTables.Naming.Style
import ConfigTables.Rows.Load
import ConfigTables.Schema.Closure

/-!
    Everything that a run reads. The tables to be exported and the closure of declarations that they
    need are fixed when the context is made; data are added afterwards, and generating changes
    nothing. -/

namespace ConfigTables

/-- The output of a run: its name, the name of the type that holds all tables, the module that the
code belongs to, and the enabled groups. -/
structure TargetConfig where
  name : String
  manager : String
  topModule : String
  groups : List String
  deriving DecidableEq

/-- The name of the type that holds all tables, unless another is given. -/
def TargetConfig.defaultManager : String := "Tables"

/-- The members of a target configuration, in order. -/
def TargetConfig.members : List String := ["name", "manager", "top_module", "groups"]

open Json (required? default?)

/-- Reads a target configuration. -/
def TargetConfig.ofJson? (j : Json) : Option TargetConfig := do
  let m ← j.record? members
  return {
    name := ← required? m "name" Json.asString?
    manager := ← default? m "manager" defaultManager Json.asString?
    topModule := ← default? m "top_module" "" Json.asString?
    groups := ← default? m "groups" [] Json.asStrings? }

/-- Tags that select records, each kind in ascending order without repetition. -/
structure TagFilter where
  included : List String
  excluded : List String
  deriving DecidableEq

/-- The members of a tag filter, in order. -/
def TagFilter.members : List String := ["include_tags", "exclude_tags"]

/-- Reads a tag filter. -/
def TagFilter.ofJson? (j : Json) : Option TagFilter := do
  let m ← j.record? members
  return {
    included := sortedNames (← default? m "include_tags" [] Json.asStrings?)
    excluded := sortedNames (← default? m "exclude_tags" [] Json.asStrings?) }

/-- What a run reads. -/
structure Context where
  graph : TypeGraph
  target : TargetConfig
  includedTags : List String
  options : Options
  exportTables : List TableDef
  closure : ExportClosure
  store : Store

namespace Context

/-- The context of a run, without data. -/
def make (graph : TypeGraph) (target : TargetConfig) (tags : TagFilter) (options : Options) :
    Except SchemaError Context := do
  let exportTables := graph.types.exportTables target.groups
  let closure ← graph.types.exportClosure exportTables target.groups
  return ⟨graph, target, tags.included, options, exportTables, closure, .empty tags.excluded⟩

/-- The context with the data of the tables to be exported. -/
def load (ctx : Context) (loader : Loader) : Except DataError Context :=
  match ctx.store.load loader ctx.exportTables with
  | (store, .ok ()) => .ok { ctx with store }
  | (_, .error e) => .error e

/-- The context with the data of one table. -/
def addRecords (ctx : Context) (t : TableDef) (main patch : List Record) :
    Except DataError Context := do
  return { ctx with store := ← ctx.store.register t main patch }

/-- The records of a table that are exported. -/
def exportRecords (ctx : Context) (t : TableDef) : Except DataError (List Record) :=
  ctx.store.exportRecords t

/-- The code style of a family: the one its option names, or another one. -/
def codeStyle (ctx : Context) (family default : String) : Except RunError Style :=
  let name := ctx.options.findD family Options.codeStyle default
  match Style.ofName? name with
  | some s => .ok s
  | none => .error (.unknownStyle name)

end Context

end ConfigTables
