import ConfigTables.Number.Binary

/-!
    TOML documents, the format of settings files. -/

namespace ConfigTables

/-- A TOML value. A moment is kept as its text. -/
inductive Toml where
  | string (s : String)
  | integer (i : Int)
  | float (x : Number.Double)
  | bool (b : Bool)
  | moment (text : String)
  | array (items : List Toml)
  | table (members : List (String × Toml))

namespace Toml

instance : Inhabited Toml := ⟨table []⟩

/-- The name that the text of a moment has where a moment is taken for a table. -/
def momentMember : String := "$__toml_private_datetime"

/-- The members of a table. A moment counts as a table of its text. -/
def members? : Toml → Option (List (String × Toml))
  | table members => some members
  | moment text => some [(momentMember, string text)]
  | _ => none

/-- The members of a record: those of a table, or the items of an array under the names given. What
has no name, and what nobody asks for, is ignored. -/
def record? (names : List String) : Toml → Option (List (String × Toml))
  | array items => some (names.zip items)
  | v => v.members?

/-- A text. -/
def asString? : Toml → Option String
  | string s => some s
  | _ => none

/-- A list of texts. -/
def asStrings? : Toml → Option (List String)
  | array items => items.mapM asString?
  | _ => none

/-- Texts by name. -/
def asTextMembers? (v : Toml) : Option (List (String × String)) :=
  v.members?.bind fun members => members.mapM fun (name, v) => v.asString?.map (name, ·)

/-- A member of a record that may be left out. -/
def default? {α : Type} (members : List (String × Toml)) (name : String) (value : α)
    (read : Toml → Option α) : Option α :=
  match members.find? (·.1 = name) with
  | none => some value
  | some member => read member.2

end Toml

end ConfigTables
