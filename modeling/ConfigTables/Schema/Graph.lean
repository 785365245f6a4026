import ConfigTables.Schema.Consistency
import ConfigTables.Schema.Document

/-!
    Type graphs: declarations that make sense together. Whoever holds a graph holds the proof that
    nothing is wrong with it, so nothing that reads one has to check it again. -/

namespace ConfigTables

/-- Declarations without fault. -/
structure TypeGraph where
  types : Declarations
  consistent : types.fault? = none

/-- The graph of some declarations, or the first thing wrong with them. -/
def TypeGraph.ofTypes (types : Declarations) : Except SchemaError TypeGraph :=
  match h : types.fault? with
  | none => .ok ⟨types, h⟩
  | some e => .error e

/-- The graph of a document. -/
def TypeGraph.ofDocument (d : SchemaDocument) : Except SchemaError TypeGraph := ofTypes d.types

end ConfigTables
