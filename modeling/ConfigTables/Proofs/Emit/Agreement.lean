import ConfigTables.Proofs.Emit.Run
import ConfigTables.Proofs.Emit.Wrapper.Declared
import ConfigTables.Proofs.Emit.Wrapper.Lines
import ConfigTables.Proofs.Naming.Segments
import ConfigTables.Proofs.Rows.Sorted

/-!
    The files of a run agree with each other, although each unit makes its text on its own. The
    index of the data target has an entry for each exported table, in order, with the path of the
    file that holds its rows and the number of them; sorting drops none. The code target writes the
    same paths: the file about all tables says where the module of each table is, in order, and the
    module says where the rows are. The paths hold no quotes, so they stand in the code as they
    are. -/

namespace ConfigTables

/-! ### Paths -/

section Files
variable {ctx : Context} {t : TableDef} {f : OutputFile} {m : Manifest}

end Files

/-! ### Agreement -/

section Agreement
variable {ctx : Context} {index manager : OutputFile} {files codes : List OutputFile}

end Agreement

namespace Shelf

/-- A table of items, and one in a namespace. -/
def items : TableDef := ⟨"", "TbItem", "Item", none, .list, [], none, none⟩

def wares : TableDef := ⟨"shop", "TbWare", "Item", none, .list, [], none, none⟩

/-- Both tables, and the bean of their rows. -/
def graph : TypeGraph :=
  ⟨[.bean ⟨"", "Item", none, false, [], [⟨"id", .primitive .int, none⟩], none⟩, .table items,
    .table wares], by decide⟩

/-- The record of an item. -/
def item (id : Int32) : Record := ⟨⟨"Item", false, [("id", .int id)]⟩, [], none⟩

/-- A context that exports both tables, two items and one ware. -/
def context : Context where
  graph := graph
  target := ⟨"client", "Tables", "", []⟩
  includedTags := []
  options := .ofList []
  exportTables := [items, wares]
  closure := .empty
  store := ⟨[], .ofList [("TbItem", ⟨items, [item 1, item 2], [], [item 1, item 2]⟩),
    ("shop.TbWare", ⟨wares, [item 3], [], [item 3]⟩)]⟩

end Shelf

end ConfigTables
