import ConfigTables.Rows.Store

/-!
    Loading the data of several tables. All tables are loaded before the first one is registered;
    then they are registered in the order of the list, up to the first that failed to load or that
    cannot be merged. -/

namespace ConfigTables

/-- What loading a table came to. -/
inductive Loaded where
  | rows (main patch : List Record)
  | failed (error : DataError)
  | panicked

/-- A source of the rows of tables. -/
abbrev Loader := TableDef → Loaded

/-- The rows of a loaded table, or why there are none. -/
def Loaded.rows? (t : TableDef) : Loaded → Except DataError (List Record × List Record)
  | rows main patch => .ok (main, patch)
  | failed e => .error e
  | panicked => .error (.invariant (.loaderPanicked t.fullName))

namespace Store

/-- Registers what was loaded, in order; the store afterwards, and what stopped it. -/
def registerAll (s : Store) : List (TableDef × Loaded) → Store × Except DataError Unit
  | [] => (s, .ok ())
  | (t, loaded) :: rest =>
    match loaded.rows? t with
    | .error e => (s, .error e)
    | .ok (main, patch) =>
      match s.register t main patch with
      | .error e => (s, .error e)
      | .ok s => s.registerAll rest

/-- Loads tables and registers them; the store afterwards, and what stopped it. -/
def load (s : Store) (loader : Loader) (tables : List TableDef) : Store × Except DataError Unit :=
  s.registerAll (tables.map fun t => (t, loader t))

end Store

end ConfigTables
