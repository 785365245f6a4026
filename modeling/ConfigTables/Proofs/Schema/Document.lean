import ConfigTables.Proofs.Rows.Reimport
import ConfigTables.Proofs.Schema.TypeExpr.Canonical
import ConfigTables.Schema.Document

/-!
    Schemas written and read again. A record is read member by member, and a member says what its
    value says or, where it may be left out, what stands for it then. So two notations of a record
    are read alike as soon as their members say the same, and the object that a record is written
    as says the same as the array of all its values, which is read one by one. Only the types of
    fields could get lost on the way: they are texts, and the text of a type is read as that type
    when the type is well formed, as all types are that were read themselves. -/

namespace ConfigTables

namespace Json
variable {α : Type} {members members' : List (String × Json)} {items : List Json}

/-- The members of a record in order, each with the document that says the same as leaving it out,
unless it is required. -/
abbrev Layout := List (String × Option Json)

/-- The names of the members. -/
def Layout.names (layout : Layout) : List String := layout.map (·.1)

/-- What the members of an object say. -/
def Layout.ofMembers (layout : Layout) (members : List (String × Json)) : List (Option Json) :=
  layout.map fun slot => ((object members).member? slot.1).or slot.2

/-- What the items of an array say, which stand for the first members. -/
def Layout.ofItems : Layout → List Json → List (Option Json)
  | [], _ => []
  | slot :: layout, items => items.head?.or slot.2 :: ofItems layout items.tail

/-- An object and an array are notations of a record, and say the same. -/
structure SameValues (layout : Layout) (members : List (String × Json)) (items : List Json) :
    Prop where
  once : ∀ name ∈ layout.names, (members.filter (·.1 = name)).length ≤ 1
  fits : items.length ≤ layout.length
  values : layout.ofMembers members = layout.ofItems items

/-- Whether a record is written as an object or as an array makes no difference to a reader. -/
def ReadsBothForms (layout : Layout) (read : Json → Option α) : Prop :=
  ∀ members items, SameValues layout members items → read (object members) = read (array items)

variable {layout : Layout}

/-! ### Members -/

@[simp] theorem member?_cons (name key : String) (j : Json) (members : List (String × Json)) :
    (object ((key, j) :: members)).member? name =
      if key = name then some j else (object members).member? name := by
  by_cases hkey : key = name <;> simp [member?, hkey]

@[simp] theorem member?_nil (name : String) : (object []).member? name = none := rfl

@[simp] theorem member?_append (name : String) (members members' : List (String × Json)) :
    (object (members ++ members')).member? name =
      ((object members).member? name).or ((object members').member? name) := by
  cases h : members.find? (·.1 = name) <;> simp [member?, List.find?_append, h]

@[simp] theorem member?_optionalMember (name key : String) (text : Option String) :
    (object (optionalMember key text)).member? name =
      if key = name then text.map string else none := by
  cases text <;> simp [optionalMember, member?_cons, member?_nil]

@[simp] theorem member?_groupsMember (name : String) (groups : List String) :
    (object (groupsMember groups)).member? name =
      if "groups" = name then (if groups = [] then none else some (strings groups)) else none := by
  cases groups <;> simp [groupsMember, member?_cons, member?_nil]

theorem required?_eq (members : List (String × Json)) (name : String) (read : Json → Option α) :
    required? members name read = ((object members).member? name).bind read := by
  cases h : members.find? (·.1 = name) <;> simp [required?, member?, h]

/-- A member that is left out is read as the document that stands for it. -/
theorem default?_eq (members : List (String × Json)) (name : String) {value : α}
    {read : Json → Option α} {j : Json} (hdefault : read j = some value) :
    default? members name value read = (((object members).member? name).or (some j)).bind read := by
  cases h : members.find? (·.1 = name) <;> simp [default?, member?, h, hdefault]

/-! ### Members that say the same -/

theorem ofMembers_congr (h : ∀ name ∈ layout.names,
    (object members).member? name = (object members').member? name) :
    layout.ofMembers members = layout.ofMembers members' :=
  List.map_congr_left fun slot hslot => by rw [h slot.1 (List.mem_map_of_mem hslot)]

/-- A member of another name says nothing. -/
theorem ofMembers_cons {name : String} (hname : name ∉ layout.names) (j : Json)
    (members : List (String × Json)) :
    layout.ofMembers ((name, j) :: members) = layout.ofMembers members :=
  ofMembers_congr fun key hkey => by
    rw [member?_cons, if_neg (ne_of_mem_of_not_mem hkey hname).symm]

/-- The items of an array say what they say under the names of the members. -/
theorem ofMembers_zip (hnodup : layout.names.Nodup) (items : List Json) :
    layout.ofMembers (layout.names.zip items) = layout.ofItems items := by
  induction layout generalizing items with
  | nil => rfl
  | cons slot layout ih =>
    obtain ⟨hslot, hnodup⟩ := List.nodup_cons.1 hnodup
    cases items with
    | nil =>
      have hrest := ih hnodup []
      rw [List.zip_nil_right] at hrest ⊢
      exact congrArg (slot.2 :: ·) hrest
    | cons j items =>
      -- the names are different, so the first item says nothing under the other names
      have hhead : (object ((slot.1, j) :: (Layout.names layout).zip items)).member? slot.1 =
          some j := by
        rw [member?_cons, if_pos rfl]
      have hrest : Layout.ofMembers layout ((slot.1, j) :: (Layout.names layout).zip items) =
          Layout.ofItems layout items :=
        (ofMembers_cons hslot j _).trans (ih hnodup items)
      exact congrArg₂ (·.or slot.2 :: ·) hhead hrest

/-- A reader of members that say the same reads both notations of a record alike. -/
theorem readsBothForms {read : Json → Option α} {readMembers : List (String × Json) → Option α}
    (hread : ∀ j, read j = (j.record? layout.names).bind readMembers)
    (hnodup : layout.names.Nodup)
    (hsame : ∀ members members', layout.ofMembers members = layout.ofMembers members' →
      readMembers members = readMembers members') : ReadsBothForms layout read := by
  intro members items ⟨honce, hfits, hvalues⟩
  have hobject : (object members).record? layout.names = some members :=
    if_pos (List.all_eq_true.2 fun name hname => decide_eq_true (honce name hname))
  have harray : (array items).record? layout.names = some (layout.names.zip items) :=
    if_pos (by rwa [Layout.names, List.length_map])
  rw [hread, hread, hobject, harray]
  exact hsame _ _ (hvalues.trans (ofMembers_zip hnodup items).symm)

/-! ### Records that are written -/

/-- The members that are written have some of the names of a record, in their order. -/
def Named (members : List (String × Json)) (names : List String) : Prop :=
  (members.map (·.1)).Sublist names

theorem Named.append {names names' : List String} (h : Named members names)
    (h' : Named members' names') : Named (members ++ members') (names ++ names') := by
  rw [Named, List.map_append]
  exact List.Sublist.append h h'

theorem named_self (members : List (String × Json)) : Named members (members.map (·.1)) :=
  List.Sublist.refl _

theorem named_optionalMember (name : String) (text : Option String) :
    Named (optionalMember name text) [name] := by
  cases text with
  | none => exact List.nil_sublist _
  | some s => exact List.Sublist.refl _

theorem named_groupsMember (groups : List String) : Named (groupsMember groups) ["groups"] := by
  cases groups with
  | nil => exact List.nil_sublist _
  | cons group groups => exact List.Sublist.refl _

theorem sameValues_of_named (hnodup : layout.names.Nodup) (hnamed : Named members layout.names)
    (hfits : items.length = layout.length)
    (hvalues : layout.ofMembers members = layout.ofItems items) :
    SameValues layout members items := by
  refine ⟨fun name _ => ?_, hfits.le, hvalues⟩
  have hcount := List.nodup_iff_count_le_one.1 (hnodup.sublist hnamed) name
  rwa [List.count, List.countP_map, List.countP_eq_length_filter] at hcount

/-! ### Records with a tag -/

theorem member?_filter_ne {name tag : String} (hne : name ≠ tag)
    (members : List (String × Json)) :
    (object (members.filter (·.1 ≠ tag))).member? name = (object members).member? name := by
  induction members with
  | nil => rfl
  | cons member members ih =>
    obtain ⟨key, j⟩ := member
    by_cases hkey : key = tag
    · rw [List.filter_cons_of_neg (by simpa using hkey), ih, member?_cons,
        if_neg (hkey ▸ hne.symm)]
    · rw [List.filter_cons_of_pos (by simpa using hkey), member?_cons, member?_cons, ih]

namespace SameValues
variable {tag : String} {j : Json}

/-- One member is the tag. -/
theorem filter_tag (h : SameValues ((tag, none) :: layout) members (j :: items)) :
    members.filter (·.1 = tag) = [(tag, j)] := by
  have hvalue : ((object members).member? tag).or none = some j := (List.cons.inj h.values).1
  have honce := h.once tag List.mem_cons_self
  rw [Option.or_none, member?, ← List.head?_filter] at hvalue
  obtain ⟨member, hmember, rfl⟩ := Option.map_eq_some_iff.1 hvalue
  obtain ⟨rest, hfilter⟩ := List.head?_eq_some_iff.1 hmember
  have hmem : member ∈ members.filter (·.1 = tag) := List.mem_of_head? hmember
  obtain rfl : member.1 = tag := of_decide_eq_true (List.mem_filter.1 hmem).2
  obtain rfl : rest = [] := List.length_eq_zero_iff.1 (by simpa [hfilter] using honce)
  exact hfilter

/-- The other members say the same without the tag. -/
theorem untagged (htag : tag ∉ layout.names)
    (h : SameValues ((tag, none) :: layout) members (j :: items)) :
    SameValues layout (members.filter (·.1 ≠ tag)) items where
  once name hname :=
    (List.filter_sublist.filter _).length_le.trans (h.once name (List.mem_cons_of_mem _ hname))
  fits := Nat.le_of_succ_le_succ h.fits
  values := by
    have hvalues : layout.ofMembers members = layout.ofItems items := (List.cons.inj h.values).2
    rw [← hvalues]
    exact ofMembers_congr fun name hname =>
      member?_filter_ne (ne_of_mem_of_not_mem hname htag) members

end SameValues

/-! ### Values that are written -/

@[simp] theorem asString?_string (s : String) : (string s).asString? = some s := rfl

@[simp] theorem asBool?_bool (b : Bool) : (bool b).asBool? = some b := rfl

@[simp] theorem asOptional?_optional (text : Option String) :
    (optional text).asOptional? = some text := by
  cases text <;> rfl

@[simp] theorem asInt32?_int (i : Int32) : (int i.toInt).asInt32? = some i := by
  rw [int, asInt32?, if_pos (fitsInt32_toInt i), Int32.ofInt_toInt]

/-- A list is read back when each of its elements is. -/
theorem asList?_map {β : Type} {read : Json → Option β} {write : β → Json} {l : List β}
    (h : ∀ b ∈ l, read (write b) = some b) : (array (l.map write)).asList? read = some l := by
  induction l with
  | nil => rfl
  | cons b l ih =>
    obtain ⟨hb, hl⟩ := List.forall_mem_cons.1 h
    have hrest : (l.map write).mapM read = some l := ih hl
    simp [asList?, hb, hrest]

@[simp] theorem asStrings?_strings (groups : List String) :
    (strings groups).asStrings? = some groups :=
  asList?_map fun _ _ => rfl

/-- What is read as the elements of a list has whatever its reader ensures. -/
theorem forall_of_asList? {read : Json → Option α} {p : α → Prop} {j : Json} {l : List α}
    (h : j.asList? read = some l) (hread : ∀ j a, read j = some a → p a) : ∀ a ∈ l, p a := by
  cases j with
  | array items =>
    replace h : items.mapM read = some l := h
    induction items generalizing l with
    | nil => cases h; simp
    | cons j items ih =>
      simp only [List.mapM_cons, Option.bind_eq_bind, Option.bind_eq_some_iff] at h
      obtain ⟨a, ha, rest, hrest, ⟨⟩⟩ := h
      exact List.forall_mem_cons.2 ⟨hread j a ha, ih hrest⟩
  | _ => cases h

/-! ### Values that are left out -/

theorem asOptional?_null : null.asOptional? = some none := rfl

theorem asList?_nil (read : Json → Option α) : (array []).asList? read = some [] := rfl

theorem asStrings?_nil : (array []).asStrings? = some [] := rfl

@[simp] theorem getD_null (text : Option String) :
    (text.map string).getD null = optional text := by
  cases text <;> rfl

@[simp] theorem getD_noGroups (groups : List String) :
    (if groups = [] then none else some (strings groups)).getD (array []) = strings groups := by
  cases groups <;> rfl

end Json

open Json

/-! ### Enums -/

namespace EnumItem

/-- The members of an enum item. -/
def layout : Layout :=
  [("name", none), ("value", none), ("alias", some .null), ("comment", some .null)]

theorem readsBothForms : ReadsBothForms layout ofJson? := by
  refine Json.readsBothForms (fun _ => rfl) (by decide) fun m m' h => ?_
  -- one equation for each member, in the form in which the reader asks for it
  simp only [Layout.ofMembers, layout, List.map_cons, List.cons.injEq, Option.or_none] at h
  simp only [required?_eq, default?_eq _ _ asOptional?_null, h]

/-- The values of an enum item, all of them in order. -/
def values (i : EnumItem) : List Json :=
  [.string i.name, .int i.value.toInt, .optional i.alternate, .optional i.comment]

theorem ofJson?_values (i : EnumItem) : ofJson? (.array i.values) = some i := by
  simp [ofJson?, values, members, record?, required?, default?]

theorem ofJson?_toJson (i : EnumItem) : ofJson? i.toJson = some i := by
  rw [← ofJson?_values]
  refine readsBothForms _ _ (sameValues_of_named (by decide) ?_ rfl ?_)
  · exact ((named_self _).append (named_optionalMember _ _)).append (named_optionalMember _ _)
  · simp [layout, values, Layout.ofMembers, Layout.ofItems]

end EnumItem

namespace EnumDef

/-- The members of an enum. -/
def layout : Layout :=
  [("namespace", some (.string "")), ("name", none), ("flags", some (.bool false)),
    ("groups", some (.array [])), ("items", none), ("comment", some .null)]

theorem readsBothForms : ReadsBothForms layout ofJson? := by
  refine Json.readsBothForms (fun _ => rfl) (by decide) fun m m' h => ?_
  simp only [Layout.ofMembers, layout, List.map_cons, List.cons.injEq, Option.or_none] at h
  simp only [required?_eq, default?_eq _ _ (asString?_string _), default?_eq _ _ (asBool?_bool _),
    default?_eq _ _ asStrings?_nil, default?_eq _ _ asOptional?_null, h]

/-- The values of an enum, all of them in order. -/
def values (e : EnumDef) : List Json :=
  [.string e.space, .string e.name, .bool e.flags, .strings e.groups,
    .array (e.items.map EnumItem.toJson), .optional e.comment]

theorem ofJson?_values (e : EnumDef) : ofJson? (.array e.values) = some e := by
  have hitems := asList?_map fun i (_ : i ∈ e.items) => i.ofJson?_toJson
  simp [ofJson?, values, members, record?, required?, default?, hitems]

theorem named_toMembers (e : EnumDef) : Named e.toMembers layout.names :=
  (((named_self _).append (named_groupsMember _)).append (named_self _)).append
    (named_optionalMember _ _)

theorem ofMembers_toMembers (e : EnumDef) :
    layout.ofMembers e.toMembers = layout.ofItems e.values := by
  simp [layout, values, toMembers, Layout.ofMembers, Layout.ofItems]

end EnumDef

/-! ### Beans -/

namespace TypeExpr

theorem ofJson?_text {t : TypeExpr} (h : t.WellFormed) : ofJson? (.string t.text) = some t := by
  have hread : parse t.text = .ok t := ofText_of_denotes (denotes_text h) rfl
  rw [ofJson?, hread]
  rfl

theorem wellFormed_of_ofJson? {j : Json} {t : TypeExpr} (h : ofJson? j = some t) :
    t.WellFormed := by
  cases j with
  | string s =>
    cases hread : parse s with
    | error e => simp [ofJson?, hread, Except.toOption] at h
    | ok t' =>
      obtain rfl : t' = t := by simpa [ofJson?, hread, Except.toOption] using h
      exact (denotes_of_ofText hread).wellFormed
  | _ => cases h

end TypeExpr

namespace FieldDef

/-- The members of a field. -/
def layout : Layout := [("name", none), ("type", none), ("comment", some .null)]

theorem readsBothForms : ReadsBothForms layout ofJson? := by
  refine Json.readsBothForms (fun _ => rfl) (by decide) fun m m' h => ?_
  simp only [Layout.ofMembers, layout, List.map_cons, List.cons.injEq, Option.or_none] at h
  simp only [required?_eq, default?_eq _ _ asOptional?_null, h]

/-- The values of a field, all of them in order. -/
def values (f : FieldDef) : List Json := [.string f.name, .string f.type.text, .optional f.comment]

theorem ofJson?_values {f : FieldDef} (h : f.type.WellFormed) :
    ofJson? (.array f.values) = some f := by
  simp [ofJson?, values, members, record?, required?, default?, TypeExpr.ofJson?_text h]

theorem ofJson?_toJson {f : FieldDef} (h : f.type.WellFormed) : ofJson? f.toJson = some f := by
  rw [← ofJson?_values h]
  refine readsBothForms _ _ (sameValues_of_named (by decide) ?_ rfl ?_)
  · exact (named_self _).append (named_optionalMember _ _)
  · simp [layout, values, Layout.ofMembers, Layout.ofItems]

theorem wellFormed_of_ofJson? {j : Json} {f : FieldDef} (h : ofJson? j = some f) :
    f.type.WellFormed := by
  simp only [ofJson?, Option.bind_eq_bind, Option.bind_eq_some_iff] at h
  obtain ⟨m, _, name, _, type, htype, comment, _, ⟨⟩⟩ := h
  rw [required?_eq, Option.bind_eq_some_iff] at htype
  obtain ⟨_, _, htype⟩ := htype
  exact TypeExpr.wellFormed_of_ofJson? htype

end FieldDef

namespace BeanDef

/-- The members of a bean. -/
def layout : Layout :=
  [("namespace", some (.string "")), ("name", none), ("parent", some .null),
    ("is_abstract", some (.bool false)), ("groups", some (.array [])), ("fields", some (.array [])),
    ("comment", some .null)]

theorem readsBothForms : ReadsBothForms layout ofJson? := by
  refine Json.readsBothForms (fun _ => rfl) (by decide) fun m m' h => ?_
  simp only [Layout.ofMembers, layout, List.map_cons, List.cons.injEq, Option.or_none] at h
  simp only [required?_eq, default?_eq _ _ (asString?_string _), default?_eq _ _ (asBool?_bool _),
    default?_eq _ _ asStrings?_nil, default?_eq _ _ (asList?_nil _),
    default?_eq _ _ asOptional?_null, h]

/-- The values of a bean, all of them in order. -/
def values (b : BeanDef) : List Json :=
  [.string b.space, .string b.name, .optional b.parent, .bool b.isAbstract, .strings b.groups,
    .array (b.fields.map FieldDef.toJson), .optional b.comment]

theorem ofJson?_values {b : BeanDef} (h : ∀ f ∈ b.fields, f.type.WellFormed) :
    ofJson? (.array b.values) = some b := by
  have hfields := asList?_map fun f hf => FieldDef.ofJson?_toJson (h f hf)
  simp [ofJson?, values, members, record?, required?, default?, hfields]

theorem named_toMembers (b : BeanDef) : Named b.toMembers layout.names :=
  (((((named_self _).append (named_optionalMember _ _)).append (named_self _)).append
    (named_groupsMember _)).append (named_self _)).append (named_optionalMember _ _)

theorem ofMembers_toMembers (b : BeanDef) :
    layout.ofMembers b.toMembers = layout.ofItems b.values := by
  simp [layout, values, toMembers, Layout.ofMembers, Layout.ofItems]

theorem wellFormed_of_ofJson? {j : Json} {b : BeanDef} (h : ofJson? j = some b) :
    ∀ f ∈ b.fields, f.type.WellFormed := by
  simp only [ofJson?, Option.bind_eq_bind, Option.bind_eq_some_iff] at h
  obtain ⟨m, _, _, _, _, _, _, _, _, _, _, _, fields, hfields, _, _, ⟨⟩⟩ := h
  rw [default?_eq _ _ (asList?_nil _), Option.bind_eq_some_iff] at hfields
  obtain ⟨_, _, hfields⟩ := hfields
  exact forall_of_asList? hfields fun _ _ => FieldDef.wellFormed_of_ofJson?

end BeanDef

/-! ### Tables -/

namespace TableMode

theorem ofJson?_name (mode : TableMode) : ofJson? (.string mode.name) = some mode := by
  cases mode <;> rfl

theorem ofDeclared?_name (mode : TableMode) : ofDeclared? (.string mode.name) = some mode :=
  ofJson?_name mode

end TableMode

namespace TableDef

/-- The members of a table. -/
def layout : Layout :=
  [("namespace", some (.string "")), ("name", none), ("value_type", none), ("index", some .null),
    ("mode", some (.string TableMode.map.name)), ("groups", some (.array [])),
    ("input", some .null), ("comment", some .null)]

section
variable {mode : Json → Option TableMode} (hmode : ∀ m : TableMode, mode (.string m.name) = some m)
include hmode

theorem readsBothForms : ReadsBothForms layout (ofJsonWith? mode) := by
  refine Json.readsBothForms (fun _ => rfl) (by decide) fun m m' h => ?_
  simp only [Layout.ofMembers, layout, List.map_cons, List.cons.injEq, Option.or_none] at h
  simp only [required?_eq, default?_eq _ _ (asString?_string _), default?_eq _ _ (hmode _),
    default?_eq _ _ asStrings?_nil, default?_eq _ _ asOptional?_null, h]

end

/-- The values of a table, all of them in order. -/
def values (t : TableDef) : List Json :=
  [.string t.space, .string t.name, .string t.valueType, .optional t.index, .string t.mode.name,
    .strings t.groups, .optional t.input, .optional t.comment]

theorem ofJson?_values {mode : Json → Option TableMode}
    (hmode : ∀ m : TableMode, mode (.string m.name) = some m) (t : TableDef) :
    ofJsonWith? mode (.array t.values) = some t := by
  simp [ofJsonWith?, values, members, record?, required?, default?, hmode]

theorem named_toMembers (t : TableDef) : Named t.toMembers layout.names :=
  (((((named_self _).append (named_optionalMember _ _)).append (named_self _)).append
    (named_groupsMember _)).append (named_optionalMember _ _)).append (named_optionalMember _ _)

theorem ofMembers_toMembers (t : TableDef) :
    layout.ofMembers t.toMembers = layout.ofItems t.values := by
  simp [layout, values, toMembers, Layout.ofMembers, Layout.ofItems]

end TableDef

/-! ### Declarations -/

namespace Kind

/-- The members of a declaration besides its kind. -/
def contents : Kind → Layout
  | enum => EnumDef.layout
  | bean => BeanDef.layout
  | table => TableDef.layout

/-- The members of a declaration. -/
def layout (kind : Kind) : Layout := ("kind", none) :: kind.contents

/-- Reads a declaration that its kind has been taken off. -/
def read? : Kind → Json → Option TypeDef
  | enum, j => (EnumDef.ofJson? j).map .enum
  | bean, j => (BeanDef.ofJson? j).map .bean
  | table, j => (TableDef.ofJsonWith? TableMode.ofDeclared? j).map .table

theorem nodup_layout (kind : Kind) : kind.layout.names.Nodup := by
  cases kind <;> decide

theorem kind_notMem_contents (kind : Kind) : "kind" ∉ kind.contents.names :=
  (List.nodup_cons.1 kind.nodup_layout).1

theorem readsBothForms (kind : Kind) : ReadsBothForms kind.contents kind.read? := by
  intro members items h
  cases kind with
  | enum => exact congrArg (Option.map _) (EnumDef.readsBothForms members items h)
  | bean => exact congrArg (Option.map _) (BeanDef.readsBothForms members items h)
  | table =>
    exact congrArg (Option.map _)
      (TableDef.readsBothForms TableMode.ofDeclared?_name members items h)

end Kind

namespace TypeDef

theorem ofJson?_of_takeKind? {kind : Kind} {j rest : Json}
    (h : takeKind? j = some (kind.label, rest)) : ofJson? j = kind.read? rest := by
  cases kind <;> simp [ofJson?, h, Kind.label, Kind.read?]

theorem ofJson?_array (kind : Kind) (items : List Json) :
    ofJson? (.array (.string kind.label :: items)) = kind.read? (.array items) :=
  ofJson?_of_takeKind? rfl

/-- The kind may stand anywhere among the members, and first among the items. -/
theorem readsBothForms (kind : Kind) {members : List (String × Json)} {items : List Json}
    (h : SameValues kind.layout members (.string kind.label :: items)) :
    ofJson? (.object members) = ofJson? (.array (.string kind.label :: items)) := by
  have htake : takeKind? (.object members) =
      some (kind.label, .object (members.filter (·.1 ≠ "kind"))) := by
    simp only [takeKind?, h.filter_tag]
  rw [ofJson?_of_takeKind? htake, ofJson?_array]
  exact kind.readsBothForms _ _ (h.untagged kind.kind_notMem_contents)

/-- The types of all fields are well formed. -/
def Legible : TypeDef → Prop
  | bean b => ∀ f ∈ b.fields, f.type.WellFormed
  | _ => True

/-- The members that a declaration is written with, besides its kind. -/
def contents : TypeDef → List (String × Json)
  | enum e => e.toMembers
  | bean b => b.toMembers
  | table t => t.toMembers

/-- The values of a declaration, all of them in order, besides its kind. -/
def values : TypeDef → List Json
  | enum e => e.values
  | bean b => b.values
  | table t => t.values

theorem toJson_eq (d : TypeDef) :
    d.toJson = .object (("kind", .string d.kind.label) :: d.contents) := by
  cases d <;> rfl

theorem read?_values {d : TypeDef} (h : d.Legible) : d.kind.read? (.array d.values) = some d := by
  cases d with
  | enum e => exact congrArg (Option.map _) e.ofJson?_values
  | bean b => exact congrArg (Option.map _) (BeanDef.ofJson?_values h)
  | table t => exact congrArg (Option.map _) (t.ofJson?_values TableMode.ofDeclared?_name)

theorem sameValues_contents (d : TypeDef) :
    SameValues d.kind.layout (("kind", .string d.kind.label) :: d.contents)
      (.string d.kind.label :: d.values) := by
  -- kind by kind, what is written besides the kind, and then the kind in front of it
  have hnamed : Named d.contents d.kind.contents.names := by
    cases d with
    | enum e => exact e.named_toMembers
    | bean b => exact b.named_toMembers
    | table t => exact t.named_toMembers
  have hvalues : d.kind.contents.ofMembers d.contents = d.kind.contents.ofItems d.values := by
    cases d with
    | enum e => exact e.ofMembers_toMembers
    | bean b => exact b.ofMembers_toMembers
    | table t => exact t.ofMembers_toMembers
  refine sameValues_of_named d.kind.nodup_layout ((named_self [_]).append hnamed) ?_ ?_
  · cases d <;> rfl
  · exact congrArg₂ List.cons (by simp)
      ((ofMembers_cons d.kind.kind_notMem_contents _ _).trans hvalues)

theorem ofJson?_toJson {d : TypeDef} (h : d.Legible) : ofJson? d.toJson = some d := by
  rw [toJson_eq, readsBothForms d.kind d.sameValues_contents, ofJson?_array, read?_values h]

theorem legible_of_ofJson? {j : Json} {d : TypeDef} (h : ofJson? j = some d) : d.Legible := by
  simp only [ofJson?, Option.bind_eq_bind, Option.bind_eq_some_iff] at h
  obtain ⟨_, _, h⟩ := h
  split at h
  · obtain ⟨e, _, rfl⟩ := Option.map_eq_some_iff.1 h
    trivial
  · obtain ⟨b, hb, rfl⟩ := Option.map_eq_some_iff.1 h
    exact BeanDef.wellFormed_of_ofJson? hb
  · obtain ⟨t, _, rfl⟩ := Option.map_eq_some_iff.1 h
    trivial
  · cases h

end TypeDef

namespace SchemaDocument

/-- The members of a schema document. -/
def layout : Layout := [("schema_version", some (.string currentVersion)), ("types", none)]

theorem readsBothForms : ReadsBothForms layout ofJson? := by
  refine Json.readsBothForms (fun _ => rfl) (by decide) fun m m' h => ?_
  simp only [Layout.ofMembers, layout, List.map_cons, List.cons.injEq, Option.or_none] at h
  simp only [required?_eq, default?_eq _ _ (asString?_string _), h]

theorem ofJson?_toJson {d : SchemaDocument} (h : ∀ t ∈ d.types, t.Legible) :
    ofJson? d.toJson = some d := by
  have htypes := asList?_map fun t ht => TypeDef.ofJson?_toJson (h t ht)
  simp [ofJson?, toJson, members, record?, required?, default?, htypes]

theorem legible_of_ofJson? {j : Json} {d : SchemaDocument} (h : ofJson? j = some d) :
    ∀ t ∈ d.types, t.Legible := by
  simp only [ofJson?, Option.bind_eq_bind, Option.bind_eq_some_iff] at h
  obtain ⟨m, _, version, _, types, htypes, ⟨⟩⟩ := h
  rw [required?_eq, Option.bind_eq_some_iff] at htypes
  obtain ⟨_, _, htypes⟩ := htypes
  exact forall_of_asList? htypes fun _ _ => TypeDef.legible_of_ofJson?

end SchemaDocument

/-- Schema documents survive being written. What has been read, in whatever mixture of notations, is
read again from what it is written as, and is then written the same once more. And an object and an
array with the same member values, be these written or left out, are read as one definition. -/
theorem schema_document_roundtrip :
    (∀ (j : Json) (d : SchemaDocument), SchemaDocument.ofJson? j = some d →
      SchemaDocument.ofJson? d.toJson = some d ∧
        (SchemaDocument.ofJson? d.toJson).map SchemaDocument.toJson = some d.toJson) ∧
    ReadsBothForms SchemaDocument.layout SchemaDocument.ofJson? ∧
    (∀ (kind : Kind) (members : List (String × Json)) (items : List Json),
      SameValues kind.layout members (.string kind.label :: items) →
      TypeDef.ofJson? (.object members) = TypeDef.ofJson? (.array (.string kind.label :: items))) ∧
    ReadsBothForms EnumDef.layout EnumDef.ofJson? ∧
    ReadsBothForms EnumItem.layout EnumItem.ofJson? ∧
    ReadsBothForms BeanDef.layout BeanDef.ofJson? ∧
    ReadsBothForms FieldDef.layout FieldDef.ofJson? ∧
    ReadsBothForms TableDef.layout TableDef.ofJson? := by
  refine ⟨fun j d h => ?_, SchemaDocument.readsBothForms,
    fun kind _ _ => TypeDef.readsBothForms kind, EnumDef.readsBothForms, EnumItem.readsBothForms,
    BeanDef.readsBothForms, FieldDef.readsBothForms,
    TableDef.readsBothForms TableMode.ofJson?_name⟩
  have hback := SchemaDocument.ofJson?_toJson (SchemaDocument.legible_of_ofJson? h)
  exact ⟨hback, by rw [hback]; rfl⟩

namespace Bestiary

/-- A field as an array, with blanks in its type. -/
def age : Json := .array [.string "age", .string " int "]

/-- A bean as an object, with its kind last. -/
def monster : List (String × Json) :=
  [("fields", .array [age]), ("name", .string "Monster"), ("kind", .string "bean")]

/-- The same bean as the items after its kind, up to its fields. -/
def monsterItems : List Json :=
  [.string "", .string "Monster", .null, .bool false, .array [], .array [age]]

/-- An enum as an array, with its item as an object. -/
def diet : Json :=
  .array [.string Kind.enum.label, .string "", .string "Diet", .bool true, .array [],
    .array [.object [("value", .int (-1)), ("name", .string "None")]]]

/-- A document as an array. -/
def mixed : Json := .array [.string "0.2", .array [.object monster, diet]]

/-- The schema that it holds. -/
def document : SchemaDocument where
  version := "0.2"
  types := [
    .bean ⟨"", "Monster", none, false, [], [⟨"age", .primitive .int, none⟩], none⟩,
    .enum ⟨"", "Diet", true, [], [⟨"None", -1, none, none⟩], none⟩]

theorem sameValues_monster :
    SameValues (Kind.layout .bean) monster (.string Kind.bean.label :: monsterItems) where
  once := by decide
  fits := by decide
  values := by
    simp [monster, monsterItems, Kind.layout, Kind.contents, Kind.label, BeanDef.layout,
      Layout.ofMembers, Layout.ofItems]

/-- The mixture is read, and what it holds is read again from the objects that are written, the
object of the bean like its array, and the object of the field like the array. -/
theorem bestiary_roundtrip :
    SchemaDocument.ofJson? mixed = some document ∧
      SchemaDocument.ofJson? document.toJson = some document ∧
      TypeDef.ofJson? (.object monster) =
        TypeDef.ofJson? (.array (.string "bean" :: monsterItems)) ∧
      FieldDef.ofJson? (.object [("type", .string " int "), ("name", .string "age")]) =
        FieldDef.ofJson? age := by
  have htype : TypeExpr.ofJson? (.string " int ") = some (.primitive .int) := by
    have hread : TypeExpr.parse " int " = .ok (.primitive .int) :=
      TypeExpr.ofText_of_denotes (TypeExpr.denotes_text (t := .primitive .int) trivial) (by decide)
    rw [TypeExpr.ofJson?, hread]
    rfl
  have hage : FieldDef.ofJson? age = some ⟨"age", .primitive .int, none⟩ := by
    simp [age, FieldDef.ofJson?, FieldDef.members, record?, required?, default?, htype]
  have hmonster : TypeDef.ofJson? (.object monster) = some document.types[0] := by
    rw [TypeDef.readsBothForms .bean sameValues_monster]
    simp [TypeDef.ofJson?_array, Kind.read?, monsterItems, BeanDef.ofJson?, BeanDef.members,
      record?, required?, default?, asList?, asStrings?, asOptional?, hage, document]
  have hdiet : TypeDef.ofJson? diet = some document.types[1] := rfl
  have hmixed : SchemaDocument.ofJson? mixed = some document := by
    simp [mixed, SchemaDocument.ofJson?, SchemaDocument.members, record?, required?, default?,
      asList?, hmonster, hdiet, document]
  obtain ⟨hback, -, htypes, -, -, -, hfields, -⟩ := schema_document_roundtrip
  refine ⟨hmixed, (hback _ _ hmixed).1, htypes .bean _ _ sameValues_monster, hfields _ _ ?_⟩
  exact ⟨by decide, by decide, by simp [FieldDef.layout, Layout.ofMembers, Layout.ofItems]⟩

end Bestiary

end ConfigTables
