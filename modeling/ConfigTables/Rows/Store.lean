import ConfigTables.NameMap
import ConfigTables.Rows.Merge
import ConfigTables.Schema.Graph

/-!
    The data of a run: for each table its main, patch and merged records, and the tags whose records
    are left out of exports. A registration replaces the earlier one of the table or, when the
    records cannot be merged, changes nothing. -/

namespace ConfigTables

/-- The data of one table. -/
structure TableData where
  table : TableDef
  main : List Record
  patch : List Record
  merged : List Record

/-- The data of the tables registered so far, by full name. -/
structure Store where
  excluded : List String
  tables : NameMap TableData

namespace Store

/-- The store without tables. -/
def empty (excluded : List String) : Store := ⟨excluded, .empty⟩

/-- The store with the data of a table. -/
def register (s : Store) (t : TableDef) (main patch : List Record) : Except DataError Store := do
  let merged ← mergeRecords t main patch
  return { s with tables := s.tables.insert t.fullName ⟨t, main, patch, merged⟩ }

/-- Whether there are data for a table. -/
def isRegistered (s : Store) (t : TableDef) : Bool := s.tables.contains t.fullName

/-- The data of a table. -/
def data (s : Store) (t : TableDef) : Except DataError TableData :=
  match s.tables.get? t.fullName with
  | some d => .ok d
  | none => .error (.notRegistered t.fullName)

/-- The merged records of a table. -/
def allRecords (s : Store) (t : TableDef) : Except DataError (List Record) :=
  (s.data t).map TableData.merged

/-- The merged records of a table without those of an excluded tag; where no tag is excluded, all of
them, whatever their tags. A table with a single row has to export exactly one. -/
def exportRecords (s : Store) (t : TableDef) : Except DataError (List Record) := do
  let merged ← s.allRecords t
  let records := if s.excluded.isEmpty then merged else merged.filter (·.isKept s.excluded)
  if t.isSingleton && records.length ≠ 1 then .error (.singleton t.fullName records.length)
  else return records

/-- The integer that a record is sorted by, when the value of the key field has its declared type. -/
def sortKey? (declared : TypeExpr) : Option Value → Option Int
  | some (.int i) => if declared = .primitive .int then some i.toInt else none
  | some (.long i) => if declared = .primitive .long then some i.toInt else none
  | _ => none

/-- The records with the integers that they are sorted by. -/
def withSortKeys (t : TableDef) (key : FieldDef) :
    List Record → Except DataError (List (Int × Record))
  | [] => .ok []
  | r :: rest =>
    let held := r.data.field? key.name
    match sortKey? key.type held with
    | none => .error (.invariant (.keyType t.fullName key.name key.type
        ((held.map Value.kind).getD "nothing")))
    | some i => do return (i, r) :: (← withSortKeys t key rest)

/-- Records in ascending order of an integer key, those of one key in the order they had. The records
of a table without such a key keep their order. -/
def sortByKey (ds : Declarations) (t : TableDef) (records : List Record) :
    Except DataError (List Record) :=
  match ds.keyField? t with
  | none => .ok records
  | some (_, key) =>
    if key.type.isIntegerKey then do
      let keyed ← withSortKeys t key records
      return (keyed.mergeSort fun a b => decide (a.1 ≤ b.1)).map (·.2)
    else .ok records

end Store

end ConfigTables
