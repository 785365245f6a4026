import ConfigTables.Rows.Error
import ConfigTables.Rows.Value

/-!
    Putting the main rows and the patch rows of a table together. Rows of a map table have keys, and
    a patch row takes the place of the main row with its key; `overlay` says this in one expression.
    A list table takes no patches, and of a table with a single row the patch wins as a whole. -/

namespace ConfigTables

/-- The text that identifies a key. Values of several parts, floating-point numbers and `null` are no
keys. -/
def Value.keyText? : Value → Option String
  | bool b => some (if b then "true" else "false")
  | int i => some (toString i.toInt)
  | long i => some (toString i.toInt)
  | datetime seconds => some (toString seconds.toInt)
  | string s => some s
  | enum _ value => some (toString value.toInt)
  | _ => none

/-- Where a record of a table comes from, as far as that is known. -/
def Record.location (r : Record) (t : TableDef) : String := r.source.getD t.fullName

/-- The key of a record: the text of the first field named like the index. -/
def Record.key (r : Record) (t : TableDef) (index : String) : Except DataError String :=
  match r.data.field? index with
  | none => .error (.invalidRecord (r.location t) (.noKey index))
  | some v =>
    match v.keyText? with
    | some key => .ok key
    | none => .error (.invalidRecord (r.location t) (.badKey index v.kind))

/-- The records of one side with their keys, which have to be distinct from each other and from the
ones in `seen`. -/
def keyedRecords (t : TableDef) (index : String) (side : Side) (seen : List String) :
    List Record → Except DataError (List (String × Record))
  | [] => .ok []
  | r :: rest => do
    let key ← r.key t index
    if key ∈ seen then .error (.duplicateKey t.fullName key side)
    else return (key, r) :: (← keyedRecords t index side (key :: seen) rest)

/-- Records with keys, those of a patch in place of those with the same key, and the other ones of
the patch after them. -/
def overlay {α : Type} (main patch : List (String × α)) : List (String × α) :=
  main.map (fun entry => (patch.find? (·.1 = entry.1)).getD entry) ++
    patch.filter fun entry => !main.any (·.1 = entry.1)

/-- The records of a table from those of its two sides. -/
def mergeRecords (t : TableDef) (main patch : List Record) : Except DataError (List Record) :=
  match t.mode with
  | .one => .ok (if patch.isEmpty then main else patch)
  | .list => if patch.isEmpty then .ok main else .error (.patchUnsupported t.fullName)
  | .map =>
    match t.index with
    | none => .error (.invariant (.noIndex t.fullName))
    | some index => do
      let main ← keyedRecords t index .main [] main
      let patch ← keyedRecords t index .patch [] patch
      return (overlay main patch).map (·.2)

end ConfigTables
