/-!
    Maps from names, kept in ascending order of the names so that everything written from one comes
    out in that order. The view of a map is `get?`: `get?_insert` says that an insertion changes the
    answer for its own name only. -/

namespace ConfigTables

/-- A finite map from names, as entries in ascending order. -/
structure NameMap (α : Type) where
  entries : List (String × α)
  deriving Repr

namespace NameMap
variable {α : Type}

/-- The map without entries. -/
def empty : NameMap α := ⟨[]⟩

instance : Inhabited (NameMap α) := ⟨empty⟩

/-- Puts an entry in its place, instead of an earlier one of the same name. -/
def insertEntry (name : String) (value : α) : List (String × α) → List (String × α)
  | [] => [(name, value)]
  | entry :: rest =>
    if name < entry.1 then (name, value) :: entry :: rest
    else if name = entry.1 then (name, value) :: rest
    else entry :: insertEntry name value rest

/-- The map with `value` under `name`. -/
def insert (m : NameMap α) (name : String) (value : α) : NameMap α :=
  ⟨insertEntry name value m.entries⟩

/-- The map that holds for each name the last of the given values. -/
def ofList (entries : List (String × α)) : NameMap α :=
  entries.foldl (fun m entry => m.insert entry.1 entry.2) empty

/-- What the map holds under a name. -/
def get? (m : NameMap α) (name : String) : Option α :=
  (m.entries.find? (·.1 = name)).map (·.2)

/-- Whether the map holds something under a name. -/
def contains (m : NameMap α) (name : String) : Bool := (m.get? name).isSome

/-- The names, ascending. -/
def names (m : NameMap α) : List String := m.entries.map (·.1)

/-- The values in the order of their names. -/
def values (m : NameMap α) : List α := m.entries.map (·.2)

/-- The number of entries. -/
def size (m : NameMap α) : Nat := m.entries.length

@[simp] theorem get?_empty (name : String) : (empty : NameMap α).get? name = none := rfl

theorem find?_insertEntry (name other : String) (value : α) (entries : List (String × α)) :
    (insertEntry name value entries).find? (·.1 = other) =
      if name = other then some (name, value) else entries.find? (·.1 = other) := by
  induction entries with
  | nil => by_cases h : name = other <;> simp [insertEntry, h]
  | cons entry rest ih =>
    unfold insertEntry
    split
    · by_cases h : name = other <;> simp [h]
    · split
      · by_cases h : name = other
        · simp [h]
        · simp_all
      · by_cases h : name = other
        · simp_all [List.find?_cons]; grind
        · simp [List.find?_cons, ih, h]

theorem get?_insert (m : NameMap α) (name other : String) (value : α) :
    (m.insert name value).get? other = if name = other then some value else m.get? other := by
  unfold get? insert
  rw [find?_insertEntry]
  split <;> simp

end NameMap

/-- The names of a list in ascending order, each once. -/
def sortedNames (names : List String) : List String :=
  (NameMap.ofList (names.map fun name => (name, ()))).names

end ConfigTables
