import ConfigTables.Toml.Basic

/-!
    Tables while a document is being read. A table can come into being in three ways: by its own
    header or braces, by the header of a table inside it, or by a dotted key. What may still be added
    to a table depends on that, so each keeps its origin until the document is complete. -/

namespace ConfigTables.Toml

/-- How a table came into being. -/
inductive Origin where | declared | implied | dotted
  deriving DecidableEq

/-- What stands under a key: a value that is complete, a table, or the tables of an array that
headers add to. -/
inductive Slot where
  | value (v : Toml)
  | table (origin : Origin) (slots : List (String × Slot))
  | tables (items : List (List (String × Slot)))

/-- The slots of a table, in the order of their keys in the document. -/
abbrev Slots := List (String × Slot)

/-- A key: its last part, and the tables above it. -/
structure Key where
  above : List String
  name : String
  deriving DecidableEq

/-- The longest key, in parts. -/
def Key.maxLength : Nat := 79

namespace Slot

/-- What stands under a key. -/
def find? (slots : Slots) (name : String) : Option Slot := (slots.find? (·.1 = name)).map (·.2)

/-- The slots with something else under a key. -/
def set (slots : Slots) (name : String) (slot : Slot) : Slots :=
  if (find? slots name).isSome then slots.map fun s => if s.1 = name then (name, slot) else s
  else slots ++ [(name, slot)]

/-- Changes the table that a path leads to. The last table of an array stands for the array; what is
missing on the way is made with origin `made`. A dotted key cannot lead through a declared table. -/
def update? (made : Origin) (change : Origin → Slots → Option Slots) :
    List String → Origin → Slots → Option Slots
  | [], origin, slots => change origin slots
  | name :: rest, _, slots =>
    match find? slots name with
    | none => (update? made change rest made []).map fun inner => set slots name (.table made inner)
    | some (.value _) => none
    | some (.table origin inner) =>
      if made = .dotted && origin = .declared then none
      else
        (update? made change rest origin inner).map fun inner =>
          set slots name (.table origin inner)
    | some (.tables items) =>
      (update? made change rest .declared (items.getLast?.getD [])).map fun inner =>
        set slots name (.tables (items.dropLast ++ [inner]))

/-- Puts a value under a key. Only tables made by dotted keys can be reached by one, and only others
can be filled without. -/
def assign? (key : Key) (v : Toml) : Origin → Slots → Option Slots :=
  update? .dotted (fun origin slots =>
    if (origin = .dotted) = (key.above = []) || (find? slots key.name).isSome then none
    else some (set slots key.name (.value v))) key.above

/-- Declares a table, which may be there already only because of the tables inside it. -/
def declare? (key : Key) (root : Slots) : Option Slots :=
  update? .implied (fun _ slots =>
    match find? slots key.name with
    | none => some (set slots key.name (.table .declared []))
    | some (.table .implied inner) => some (set slots key.name (.table .declared inner))
    | some _ => none) key.above .declared root

/-- Adds a table to an array of tables. -/
def append? (key : Key) (root : Slots) : Option Slots :=
  update? .implied (fun _ slots =>
    match find? slots key.name with
    | none => some (set slots key.name (.tables [[]]))
    | some (.tables items) => some (set slots key.name (.tables (items ++ [[]])))
    | some _ => none) key.above .declared root

mutual

/-- The value of a slot. -/
def toValue : Slot → Toml
  | value v => v
  | table _ slots => .table (memberValues slots)
  | tables items => .array (itemValues items)

/-- The members of a table. -/
def memberValues : Slots → List (String × Toml)
  | [] => []
  | (name, slot) :: rest => (name, toValue slot) :: memberValues rest

/-- The items of an array of tables. -/
def itemValues : List Slots → List Toml
  | [] => []
  | slots :: rest => .table (memberValues slots) :: itemValues rest

end

end Slot

end ConfigTables.Toml
