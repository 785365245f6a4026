import ConfigTables.Proofs.Number.Exact
import ConfigTables.Proofs.Rows.Position
import ConfigTables.Proofs.Rows.TypeTag

/-!
    Exported data that are read again. The exported form of a value forgets the schema: an enum
    value is an integer, a map a list of pairs and an instance an object. Read where it stood, it
    finds its type again, and with it each of its parts, so the value that comes out is the value
    that was exported. What gets lost is what the form has no room for: a number that is not finite,
    the text of an enum value that its integer does not give, and a type whose name is taken by a
    field or by another bean. -/

namespace ConfigTables

/-- The text of an enum value is the name of the item that its integer finds. -/
def Position.NamesItem (ds : Declarations) (p : Position) : Prop :=
  ∀ e item k, p.enum? ds = some e → p.value = .enum item k →
    (e.itemOfValue? k).map (·.name) = some item

/-- Where the items of an enum are no flags and have different integers, its values have no other
texts. -/
theorem Position.namesItem_of_conforms {g : TypeGraph} {p : Position}
    (h : g.types.Conforms p.scope p.type p.value)
    (hplain : ∀ e, p.enum? g.types = some e → e.flags = false ∧ (e.items.map (·.value)).Nodup) :
    p.NamesItem g.types := by
  intro e item k henum hvalue
  obtain ⟨hflags, hvalues⟩ := hplain e henum
  obtain ⟨e', henum', hholds⟩ := exists_enum h hvalue
  cases henum.symm.trans henum'
  cases hholds with
  | @item i hi =>
    cases hfind : e.itemOfValue? i.value with
    | none => simpa using List.find?_eq_none.1 hfind i hi
    | some found =>
      have hsame : found.value = i.value := by simpa using List.find?_some hfind
      rw [List.inj_on_of_nodup_map hvalues (List.mem_of_find?_eq_some hfind) hi hsame]
      rfl
  | flags htrue _ _ => exact absurd htrue (by simp [hflags])

/-- The exported form of a value gives this value when it is read for a type. -/
def ReadsBack (ds : Declarations) (scope : BeanDef) (type : TypeExpr) (v : Value) : Prop :=
  ∀ location, v.toJson.reader ds scope type location = .ok v

section
variable {ds : Declarations} {scope : BeanDef} {type : TypeExpr} {location : String}

/-! ### Values without parts -/

theorem readInteger_int {i : Int} (h : i ≤ Int64.maxValue.toInt) :
    readInteger (.int i) = .ok i := by
  simp [readInteger, Json.int, JsonNumber.toInt64?, h]

theorem int32_le_maxValue (i : Int32) : i.toInt ≤ Int64.maxValue.toInt := by
  have hlt := i.toInt_lt
  have hmax : Int64.maxValue.toInt = 2 ^ 63 - 1 := rfl
  omega

theorem fitsInt32_toInt (i : Int32) : Number.fitsInt32 i.toInt = true := by
  have hlt := i.toInt_lt
  have hle := i.le_toInt
  have hmax : Int32.maxValue.toInt = 2 ^ 31 - 1 := rfl
  have hmin : Int32.minValue.toInt = -2 ^ 31 := rfl
  simp only [Number.fitsInt32, Bool.and_eq_true, decide_eq_true_eq]
  omega

theorem readInteger_toInt (i : Int64) : readInteger (.int i.toInt) = .ok i.toInt := by
  refine readInteger_int ?_
  have hlt := i.toInt_lt
  have hmax : Int64.maxValue.toInt = 2 ^ 63 - 1 := rfl
  omega

/-- A finite number is exported and read as it is. -/
theorem readNumber_real {x : Number.Double} (hfinite : x.isFinite) :
    readNumber (.real x) = .ok x := by
  cases x with
  | finite y => rfl
  | infinite _ => cases hfinite
  | nan => cases hfinite

/-- The exported form of a value without parts is read as this value. -/
theorem Primitive.read_toJson {p : Primitive} {v : Value} (h : p.Holds v) (hfinite : v.isFinite) :
    p.read v.toJson = .ok v := by
  cases h with
  | bool b => rfl
  | int i =>
    have hread : readInteger (.int i.toInt) = .ok i.toInt :=
      readInteger_int (int32_le_maxValue i)
    rw [Value.toJson, read, hread]
    simp only [bind, Except.bind, fitsInt32_toInt, if_true, Int32.ofInt_toInt]
  | long i =>
    rw [Value.toJson, read, readInteger_toInt, Except.map, Int64.ofInt_toInt]
  | float x =>
    obtain ⟨hwide, hnarrow⟩ := Number.Binary.finite_widened hfinite
    rw [Value.toJson, read, readNumber_real hwide, Except.map, hnarrow]
  | double x =>
    rw [Value.toJson, read, readNumber_real hfinite, Except.map]
  | string s => rfl
  | datetime seconds =>
    rw [Value.toJson, Json.int, read, ← Json.int, readInteger_toInt, Except.map, Int64.ofInt_toInt]

theorem EnumDef.read_int {e : EnumDef} {item : String} {k : Int32}
    (h : (e.itemOfValue? k).map (·.name) = some item) :
    e.read (.int k.toInt) = .ok (.enum item k) := by
  obtain ⟨i, hi, rfl⟩ := Option.map_eq_some_iff.1 h
  have hvalue : i.value = k := by simpa using List.find?_some hi
  have hread : readInteger (.int k.toInt) = .ok k.toInt :=
    readInteger_int (int32_le_maxValue k)
  rw [Json.int, read, ← Json.int, hread, ← hvalue]
  simp only [bind, Except.bind, readValue, fitsInt32_toInt, if_true, Int32.ofInt_toInt, hvalue, hi]

/-! ### Readers -/

theorem readPlain_nullable (j : Json) :
    readPlain ds j scope (.nullable type) location = readPlain ds j scope type location := by
  have hcore : (TypeExpr.nullable type).core = type.core := rfl
  unfold readPlain
  rw [hcore]
  split
  · rfl
  · rfl
  · rfl
  · rfl
  · rename_i inner htype
    exact absurd htype (TypeExpr.core_ne_nullable type inner)

/-- What is read for a type is read for the nullable type, too. -/
theorem reader_nullable {j : Json} {v : Value} (h : j.reader ds scope type location = .ok v) :
    j.reader ds scope (.nullable type) location = .ok v := by
  have hcore : (TypeExpr.nullable type).core = type.core := rfl
  cases j with
  | null =>
    cases type <;> cases h
    rfl
  | bool b => exact (readPlain_nullable _).trans h
  | number n => exact (readPlain_nullable _).trans h
  | string s => exact (readPlain_nullable _).trans h
  | array items =>
    simp only [Json.reader, readArray, hcore, readPlain_nullable] at h ⊢
    exact h
  | object members =>
    simp only [Json.reader, readObject, hcore, readPlain_nullable] at h ⊢
    exact h

/-- Where the type is primitive, the document is read as a primitive. -/
theorem reader_primitive {p : Primitive} {j : Json} {v : Value} (h : p.read j = .ok v) :
    j.reader ds scope (.primitive p) location = .ok v := by
  have hplain : readPlain ds j scope (.primitive p) location = .ok v := at_eq_ok_iff.2 h
  cases j with
  | null => cases p <;> cases h
  | bool b => exact hplain
  | number n => exact hplain
  | string s => exact hplain
  | array items => exact hplain
  | object members => exact hplain

theorem readsBack_enum {name : String} {e : EnumDef} {item : String} {k : Int32}
    (href : ds.fieldRef? scope name = some (.enum e))
    (h : (e.itemOfValue? k).map (·.name) = some item) :
    ReadsBack ds scope (.named name) (.enum item k) := by
  intro location
  change readPlain ds (.int k.toInt) scope (.named name) location = _
  simp only [readPlain, TypeExpr.core, href]
  exact at_eq_ok_iff.2 (EnumDef.read_int h)

theorem readItems_toJson {element : TypeExpr} {items : List Value}
    (h : ∀ v ∈ items, ReadsBack ds scope element v) (index : Nat) :
    readItems scope element location index (Json.itemReaders ds (items.map Value.toJson)) =
      .ok items := by
  induction items generalizing index with
  | nil => rfl
  | cons v rest ih =>
    rw [List.forall_mem_cons] at h
    refine bind_eq_ok_iff.2 ⟨v, h.1 _, bind_eq_ok_iff.2 ⟨rest, ih h.2 _, rfl⟩⟩

theorem readPairs_toJson {key value : TypeExpr} {entries : List (Value × Value)}
    (hkeys : ∀ e ∈ entries, ReadsBack ds scope key e.1)
    (hvalues : ∀ e ∈ entries, ReadsBack ds scope value e.2) (index : Nat) :
    readPairs scope key value location index
      (Json.pairReaders ds (entries.map fun e => .array [e.1.toJson, e.2.toJson])) =
        .ok entries := by
  induction entries generalizing index with
  | nil => rfl
  | cons e rest ih =>
    rw [List.forall_mem_cons] at hkeys hvalues
    refine bind_eq_ok_iff.2 ⟨e.1, hkeys.1 _, bind_eq_ok_iff.2 ⟨e.2, hvalues.1 _, ?_⟩⟩
    exact bind_eq_ok_iff.2 ⟨rest, ih hkeys.2 hvalues.2 _, rfl⟩

theorem readsBack_seq {kind : Sequence} {element : TypeExpr} {items : List Value}
    (h : ∀ v ∈ items, ReadsBack ds scope element v) :
    ReadsBack ds scope (.sequence kind element) (.seq items) := by
  intro location
  rw [Value.toJson, Value.itemsToJson_eq_map]
  exact map_eq_ok_iff.2 ⟨items, readItems_toJson h 0, rfl⟩

theorem readsBack_map {key value : TypeExpr} {entries : List (Value × Value)}
    (hkeys : ∀ e ∈ entries, ReadsBack ds scope key e.1)
    (hvalues : ∀ e ∈ entries, ReadsBack ds scope value e.2) :
    ReadsBack ds scope (.map key value) (.map entries) := by
  intro location
  rw [Value.toJson, Value.entriesToJson_eq_map]
  exact map_eq_ok_iff.2 ⟨entries, readPairs_toJson hkeys hvalues 0, rfl⟩

/-- Fields are read when the readers of the members of their names read them. -/
theorem readFields_eq_ok {members : List (String × ValueReader)}
    {fields : List (BeanDef × FieldDef)} {values : List (String × Value)}
    (hnames : values.map (·.1) = fields.map (·.2.name))
    (hread : ∀ p ∈ fields.zip values, ∃ m, members.find? (·.1 = p.2.1) = some m ∧
      ∀ location, m.2 p.1.1 p.1.2.type location = .ok p.2.2) :
    readFields location members fields = .ok values := by
  induction fields generalizing values with
  | nil =>
    cases List.map_eq_nil_iff.1 hnames
    rfl
  | cons field rest ih =>
    cases values with
    | nil => cases hnames
    | cons value values =>
      obtain ⟨hname, hnames⟩ : value.1 = field.2.name ∧ _ := List.cons.inj hnames
      rw [List.zip_cons_cons, List.forall_mem_cons] at hread
      obtain ⟨⟨m, hfind, hm⟩, hread⟩ := hread
      refine bind_eq_ok_iff.2 ⟨value.2, ?_, bind_eq_ok_iff.2 ⟨values, ih hnames hread, ?_⟩⟩
      · rw [← hname, hfind]
        exact hm _
      · rw [← hname]
        rfl

theorem memberReaders_eq_map (members : List (String × Json)) :
    Json.memberReaders ds members = members.map fun m => (m.1, m.2.reader ds) := by
  induction members with
  | nil => rfl
  | cons m rest ih => rw [Json.memberReaders, ih, List.map_cons]

/-- The reader of a member is found under the name of the member. -/
theorem find?_memberReaders {members : List (String × Json)} {name : String} {j : Json}
    (h : (Json.object members).member? name = some j) :
    (Json.memberReaders ds members).find? (·.1 = name) = some (name, j.reader ds) := by
  obtain ⟨m, hfind, rfl⟩ := Option.map_eq_some_iff.1 h
  have hname : m.1 = name := by simpa using List.find?_some hfind
  rw [memberReaders_eq_map, List.find?_map]
  change Option.map _ (members.find? (·.1 = name)) = _
  rw [hfind, ← hname]
  rfl

end

/-! ### Instances -/

section
variable {g : TypeGraph} {d c : BeanDef} {b : BeanValue} {location : String}

/-- An exported instance names the type that is found again. -/
theorem concreteBean_exported (hd : .bean d ∈ g.types) (hfree : g.types.NoFieldNamed Value.typeKey)
    (hapart : g.types.NamesApart) (h : g.types.InstanceOf d c b) :
    concreteBean g.types d (Json.typeName? b.exported) = .ok c := by
  have hnodup := h.nodup_names hd
  have hkey := h.not_mem_names hd hfree
  have hmember : Json.typeName? b.exported =
      (b.toJson.member? Value.typeKey).bind Json.asString? := by
    rw [BeanValue.toJson_eq_object]
    rfl
  by_cases htagged : b.tagged = true
  · have hc : c ∈ g.types.candidates d := (mem_candidates_iff hd).2 h.related
    rw [hmember, BeanValue.member?_typeKey hnodup hkey htagged, h.typeName]
    exact (concreteBean_fullName_iff hd hc).2 (not_captured hd hc hapart)
  · -- an instance without tag is of the declared type, which has nothing below
    have halone : c = d := h.related.resolve_right fun hbelow =>
      htagged (h.tagged.2 (.inl ⟨c, hbelow⟩))
    have hnone : b.toJson.member? Value.typeKey = none := by
      refine BeanValue.member?_eq_none ?_
      rw [BeanValue.map_fst_members, if_neg htagged]
      exact hkey
    rw [hmember, hnone, halone]
    rfl

/-- An exported instance is read as this instance, when the values of its fields are. -/
theorem readInstance_exported (hd : .bean d ∈ g.types)
    (hfree : g.types.NoFieldNamed Value.typeKey) (hapart : g.types.NamesApart)
    (h : g.types.InstanceOf d c b)
    (hfields : ∀ p ∈ (g.types.hierarchyFields c).zip b.fields,
      ReadsBack g.types p.1.1 p.1.2.type p.2.2) (reserved : List String) :
    readInstance g.types reserved d location b.exported = .ok b := by
  have hnodup := h.nodup_names hd
  have hconcrete := concreteBean_exported hd hfree hapart h
  have hvalues : readFields location (Json.memberReaders g.types b.exported)
      (g.types.hierarchyFields c) = .ok b.fields := by
    refine readFields_eq_ok h.names fun p hp => ?_
    have hmember := BeanValue.member?_field hnodup (List.of_mem_zip hp).2
    rw [BeanValue.toJson_eq_object] at hmember
    exact ⟨_, find?_memberReaders hmember, hfields p hp⟩
  have hknown : (Json.memberReaders g.types b.exported).find? (fun m =>
      !(decide (m.1 = Value.typeKey) || decide (m.1 ∈ reserved) ||
        (g.types.hierarchyFields c).any (·.2.name = m.1))) = none := by
    rw [memberReaders_eq_map, List.find?_map, Option.map_eq_none_iff, List.find?_eq_none]
    intro m hm
    have hname := NameMap.name_mem_of_mem_ofList hm
    rw [BeanValue.map_fst_members, h.names, List.mem_append] at hname
    rcases hname with hname | hname
    · split at hname
      · simp [List.mem_singleton.1 hname]
      · cases hname
    · obtain ⟨f, hf, hname⟩ := List.mem_map.1 hname
      have hany : (g.types.hierarchyFields c).any (·.2.name = m.1) = true :=
        List.any_eq_true.2 ⟨f, hf, decide_eq_true hname⟩
      simp [hany]
  have htagged : isPolymorphic g.types d = b.tagged := by
    rw [Bool.eq_iff_iff, isPolymorphic_iff hd, h.tagged]
  unfold readInstance readBean
  rw [hconcrete]
  simp only [Reading.at, Except.mapError, bind, Except.bind, h.concrete, hknown, hvalues]
  rw [htagged, ← h.typeName]
  rfl

theorem readsBack_bean {scope : BeanDef} {name : String}
    (href : g.types.fieldRef? scope name = some (.bean d))
    (hread : ∀ location, readInstance g.types [] d location b.exported = .ok b) :
    ReadsBack g.types scope (.named name) b.toValue := by
  intro location
  rw [← BeanValue.toJson, BeanValue.toJson_eq_object]
  simp only [Json.reader, readObject, TypeExpr.core, href]
  exact map_eq_ok_iff.2 ⟨b, hread location, rfl⟩

/-- A finite value at a position of a row whose enum values name their items is read back. `outer`
is the type of the position, `type` this type or one inside its nullables. -/
theorem readsBack_of_conforms (hfree : g.types.NoFieldNamed Value.typeKey)
    (hapart : g.types.NamesApart) {row : BeanValue}
    (hitems : ∀ p, row.HasPosition g.types p → p.NamesItem g.types) {scope : BeanDef}
    {type outer : TypeExpr} {v : Value} (h : g.types.Conforms scope type v)
    (houter : outer.core = type.core) (hposition : row.HasPosition g.types ⟨scope, outer, v⟩)
    (hfinite : v.isFinite) : ReadsBack g.types scope type v := by
  -- on the typing, because the exported document does not tell a sequence from a map
  induction h generalizing outer with
  | primitive hholds =>
    exact fun location => reader_primitive (Primitive.read_toJson hholds hfinite)
  | @enum scope name e v href hholds =>
    have henum : Position.enum? g.types ⟨scope, outer, v⟩ = some e :=
      Position.enum?_eq_some_iff.2 ⟨name, houter, href⟩
    cases hholds with
    | item _ => exact readsBack_enum href (hitems _ hposition e _ _ henum rfl)
    | flags _ _ _ => exact readsBack_enum href (hitems _ hposition e _ _ henum rfl)
  | @bean scope d c name b href hinstance _ ih =>
    have hd := Declarations.mem_of_fieldRef?_eq_some href
    have hfields : ∀ p ∈ (g.types.hierarchyFields c).zip b.fields,
        ReadsBack g.types p.1.1 p.1.2.type p.2.2 := fun p hp =>
      ih p hp rfl (.part hposition (.field (bean?_typeName hd hinstance) hp))
        (Value.fieldsFinite_iff.1 hfinite _ (List.of_mem_zip hp).2)
    exact readsBack_bean href fun location =>
      readInstance_exported hd hfree hapart hinstance hfields []
  | seq _ ih =>
    refine readsBack_seq fun v hv => ih v hv rfl (.part hposition (.item houter hv)) ?_
    exact Value.itemsFinite_iff.1 hfinite v hv
  | map _ _ ihKey ihValue =>
    have hentries := Value.entriesFinite_iff.1 hfinite
    refine readsBack_map (fun e he => ?_) fun e he => ?_
    · exact ihKey e he rfl (.part hposition (.key houter he)) (hentries e he).1
    · exact ihValue e he rfl (.part hposition (.value houter he)) (hentries e he).2
  | null => exact fun location => rfl
  | present _ ih => exact fun location => reader_nullable (ih houter hposition hfinite location)

/-! ### Rows -/

/-- Exported rows are read as the data that were exported. In an accepted graph where neither the
member for the type nor that for the tags is the name of a field, and no bean has the full name of
another one for its name, take a row of a table that is read with finite numbers only, and with enum
values that name the items of their integers. Its exported form is read for this table as the same
data, without tags. -/
theorem readRecord_toJson (g : TypeGraph) (hfree : g.types.NoFieldNamed Value.typeKey)
    (htags : g.types.NoFieldNamed tagsKey) (hapart : g.types.NamesApart) (t : TableDef)
    (location : String) (row : Json) (r : Record) (hread : g.readRecord t location row = .ok r)
    (hfinite : r.data.toValue.isFinite)
    (hitems : ∀ p, r.data.HasPosition g.types p → p.NamesItem g.types) (location' : String) :
    g.readRecord t location' r.data.toJson = .ok ⟨r.data, [], some location'⟩ := by
  cases hbean : g.types.bean? t.valueType with
  | none => simp [TypeGraph.readRecord, hbean] at hread
  | some d =>
    have hd := (g.bean?_eq_some_iff.1 hbean).1
    obtain ⟨c, hinstance, hfields⟩ := conformsTo_readRecord hbean hread
    have hback : ∀ p ∈ (g.types.hierarchyFields c).zip r.data.fields,
        ReadsBack g.types p.1.1 p.1.2.type p.2.2 := fun p hp =>
      readsBack_of_conforms hfree hapart hitems (hfields p hp) rfl
        (.field (bean?_typeName hd hinstance) hp)
        (Value.fieldsFinite_iff.1 hfinite _ (List.of_mem_zip hp).2)
    have hnone : readTags r.data.toJson = .ok [] := by
      have hmember : r.data.toJson.member? tagsKey = none := by
        refine BeanValue.member?_eq_none ?_
        rw [BeanValue.map_fst_members, List.mem_append, not_or]
        exact ⟨by split <;> decide, hinstance.not_mem_names hd htags⟩
      rw [readTags, hmember]
    rw [TypeGraph.readRecord, hbean]
    refine bind_eq_ok_iff.2 ⟨[], at_eq_ok_iff.2 hnone, bind_eq_ok_iff.2 ⟨r.data, ?_, rfl⟩⟩
    rw [BeanValue.toJson_eq_object, readRow_object]
    exact readInstance_exported hd hfree hapart hinstance hback [tagsKey]

end

namespace Packing

/-- A table of boxes. -/
def table : TableDef := ⟨"", "TbBox", "Box", none, .list, [], none, none⟩

/-- One and a half. -/
def weight : Number.Finite .double := ⟨false, 6755399441055744, 1022, by decide⟩

/-- Boxes of two sizes; a crate is a box with boxes in it. -/
def graph : TypeGraph where
  types :=
    [.enum ⟨"", "Size", false, [], [⟨"Small", 1, none, none⟩, ⟨"Large", 2, none, none⟩], none⟩,
      .bean ⟨"", "Box", none, false, [],
        [⟨"size", .named "Size", none⟩, ⟨"weight", .nullable (.primitive .double), none⟩], none⟩,
      .bean ⟨"", "Crate", some "Box", false, [],
        [⟨"content", .map (.primitive .string) (.named "Box"), none⟩], none⟩,
      .table table]
  consistent := by decide

/-- A crate with a small box in it, whose weight is given. -/
def row : Json :=
  .object [("$type", .string "Crate"), ("size", .string "Large"), ("content", .object [("left",
    .object [("size", .int 1), ("weight", .number (.real weight))])])]

/-- The record of this row. -/
def record : Record where
  data := ⟨"Crate", true, [("size", .enum "Large" 2), ("weight", .null),
    ("content", .map [(.string "left", .bean "Box" true [("size", .enum "Small" 1),
      ("weight", .double (.finite weight))])])]⟩
  tags := []
  source := some "rows[0]"

theorem crate_exported_read : graph.readRecord table "rows[0]" row = .ok record ∧
    graph.readRecord table "exported[0]" record.data.toJson =
      .ok ⟨record.data, [], some "exported[0]"⟩ := by
  have hread : graph.readRecord table "rows[0]" row = .ok record := rfl
  refine ⟨hread, readRecord_toJson graph (by decide) (by decide) (by decide) table "rows[0]" row
    record hread rfl (fun p hp => ?_) "exported[0]"⟩
  obtain ⟨d, hd⟩ : ∃ d, graph.types.bean? "Box" = some d := ⟨_, rfl⟩
  refine p.namesItem_of_conforms (conforms_of_hasPosition (graph.bean?_eq_some_iff.1 hd).1
    (conformsTo_readRecord hd hread) hp) fun e he => ?_
  obtain ⟨name, _, href⟩ := Position.enum?_eq_some_iff.1 he
  have hdeclared := Declarations.mem_of_fieldRef?_eq_some href
  simp only [graph, List.mem_cons, TypeDef.enum.injEq, reduceCtorEq, List.not_mem_nil, or_false]
    at hdeclared
  subst hdeclared
  decide

end Packing

end ConfigTables
