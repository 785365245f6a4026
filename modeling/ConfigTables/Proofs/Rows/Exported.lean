import ConfigTables.Proofs.NameMap
import ConfigTables.Proofs.Number.Exact
import ConfigTables.Rows.Value

/-!
    What the exported form of a bean holds: a member for each field, with the exported form of its
    value, and for a tagged bean the name of its type. Fields of one name would hide each other, so
    they are kept out; a field with the name of the type's member hides the type. -/

namespace ConfigTables

/-- Whether a number is neither infinite nor undefined. -/
def Number.Binary.isFinite {f : Number.Format} : Number.Binary f → Bool
  | .finite _ => true
  | .infinite _ => false
  | .nan => false

/-- A finite 32-bit number is not changed by its way through the 64-bit format. -/
theorem Number.Binary.finite_widened {x : Number.Single} (h : x.isFinite) :
    (x.convert .double).isFinite ∧ (x.convert .double).convert .single = x := by
  cases x with
  | finite y =>
    obtain ⟨z, hwide, hnarrow⟩ := exists_widened y
    rw [hwide]
    exact ⟨rfl, hnarrow⟩
  | infinite _ => cases h
  | nan => cases h

namespace Value

mutual

/-- Whether all numbers in a value are finite. -/
def isFinite : Value → Bool
  | float x => x.isFinite
  | double x => x.isFinite
  | bean _ _ fields => fieldsFinite fields
  | seq items => itemsFinite items
  | map entries => entriesFinite entries
  | null | bool _ | int _ | long _ | string _ | datetime _ | enum .. => true

/-- `isFinite` on the fields of a bean. -/
def fieldsFinite : List (String × Value) → Bool
  | [] => true
  | (_, v) :: rest => v.isFinite && fieldsFinite rest

/-- `isFinite` on the items of a sequence. -/
def itemsFinite : List Value → Bool
  | [] => true
  | v :: rest => v.isFinite && itemsFinite rest

/-- `isFinite` on the entries of a map. -/
def entriesFinite : List (Value × Value) → Bool
  | [] => true
  | (k, v) :: rest => k.isFinite && v.isFinite && entriesFinite rest

end

theorem fieldsFinite_iff {fields : List (String × Value)} :
    fieldsFinite fields = true ↔ ∀ f ∈ fields, f.2.isFinite := by
  induction fields with
  | nil => simp [fieldsFinite]
  | cons f rest ih => simp [fieldsFinite, ih]

theorem itemsFinite_iff {items : List Value} :
    itemsFinite items = true ↔ ∀ v ∈ items, v.isFinite := by
  induction items with
  | nil => simp [itemsFinite]
  | cons v rest ih => simp [itemsFinite, ih]

theorem entriesFinite_iff {entries : List (Value × Value)} :
    entriesFinite entries = true ↔ ∀ e ∈ entries, e.1.isFinite ∧ e.2.isFinite := by
  induction entries with
  | nil => simp [entriesFinite]
  | cons e rest ih => simp [entriesFinite, ih, and_assoc]

theorem fieldsToJson_eq_map (fields : List (String × Value)) :
    fieldsToJson fields = fields.map fun f => (f.1, f.2.toJson) := by
  induction fields with
  | nil => rfl
  | cons f rest ih => rw [fieldsToJson, ih, List.map_cons]

theorem itemsToJson_eq_map (items : List Value) : itemsToJson items = items.map toJson := by
  induction items with
  | nil => rfl
  | cons v rest ih => rw [itemsToJson, ih, List.map_cons]

theorem entriesToJson_eq_map (entries : List (Value × Value)) :
    entriesToJson entries = entries.map fun e => .array [e.1.toJson, e.2.toJson] := by
  induction entries with
  | nil => rfl
  | cons e rest ih => rw [entriesToJson, ih, List.map_cons]

end Value

/-- The member of a map that is made from a list of members. -/
theorem Json.member?_ofMap (members : List (String × Json)) (name : String) :
    (Json.ofMap members).member? name = (NameMap.ofList members).get? name := rfl

namespace BeanValue
variable {b : BeanValue}

/-- The members of an exported bean before they are put in order. -/
def members (b : BeanValue) : List (String × Json) :=
  (if b.tagged then [(Value.typeKey, .string b.typeName)] else []) ++
    b.fields.map fun f => (f.1, f.2.toJson)

theorem toJson_eq_ofMap (b : BeanValue) : b.toJson = .ofMap b.members := by
  rw [toJson, toValue, Value.toJson, Value.fieldsToJson_eq_map, members]

/-- The members of an exported bean. -/
def exported (b : BeanValue) : List (String × Json) := (NameMap.ofList b.members).entries

theorem toJson_eq_object (b : BeanValue) : b.toJson = .object b.exported :=
  toJson_eq_ofMap b

/-- The names of the members: that of the type when the bean is tagged, and those of the fields. -/
theorem map_fst_members (b : BeanValue) :
    b.members.map (·.1) = (if b.tagged then [Value.typeKey] else []) ++ b.fields.map (·.1) := by
  rw [members, List.map_append, List.map_map]
  cases b.tagged <;> rfl

theorem nodup_members (hnodup : (b.fields.map (·.1)).Nodup)
    (hkey : Value.typeKey ∉ b.fields.map (·.1)) : (b.members.map (·.1)).Nodup := by
  rw [map_fst_members]
  cases b.tagged with
  | false => simpa using hnodup
  | true => simpa using ⟨by simpa using hkey, hnodup⟩

/-- An exported bean has no other members. -/
theorem member?_eq_none {name : String} (h : name ∉ b.members.map (·.1)) :
    b.toJson.member? name = none := by
  rw [toJson_eq_ofMap, Json.member?_ofMap]
  exact NameMap.get?_ofList_eq_none h

/-- The fields come after the name of the type, so each of them has its member. -/
theorem member?_field (hnodup : (b.fields.map (·.1)).Nodup) {name : String} {v : Value}
    (h : (name, v) ∈ b.fields) : b.toJson.member? name = some v.toJson := by
  have hnames : (b.fields.map fun f => (f.1, f.2.toJson)).map (·.1) = b.fields.map (·.1) := by
    rw [List.map_map]
    rfl
  rw [toJson_eq_ofMap, Json.member?_ofMap, members]
  exact NameMap.get?_ofList_append (hnames ▸ hnodup) (List.mem_map.2 ⟨_, h, rfl⟩)

theorem field?_of_mem (hnodup : (b.fields.map (·.1)).Nodup) {name : String} {v : Value}
    (h : (name, v) ∈ b.fields) : b.field? name = some v := by
  rw [field?, NameMap.find?_of_mem hnodup h]
  rfl

theorem member?_typeKey (hnodup : (b.fields.map (·.1)).Nodup)
    (hkey : Value.typeKey ∉ b.fields.map (·.1)) (htagged : b.tagged = true) :
    b.toJson.member? Value.typeKey = some (.string b.typeName) := by
  rw [toJson_eq_ofMap, Json.member?_ofMap]
  refine NameMap.get?_ofList_of_mem (nodup_members hnodup hkey) ?_
  rw [members, if_pos htagged]
  exact List.mem_append_left _ (List.mem_singleton_self _)

end BeanValue

end ConfigTables
