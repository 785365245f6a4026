import ConfigTables.Proofs.Lists
import ConfigTables.Proofs.Result
import ConfigTables.Proofs.Schema.Hierarchy
import ConfigTables.Rows.Convert
import ConfigTables.Schema.Closure

/-!
    Rows that are read conform to the schema. `Conforms` says which values a place of a type may hold,
    constructor by constructor of the type; a bean holds exactly the fields of its concrete type, each
    in the scope of the bean that declares it. A document is read by a reader that is put together
    from the readers of its parts, so conformance is proved for each way of putting readers together,
    and the induction is on the document. -/

namespace ConfigTables

/-- The values of a primitive type are those of its own variant. -/
inductive Primitive.Holds : Primitive → Value → Prop
  | bool (b : Bool) : Holds .bool (.bool b)
  | int (i : Int32) : Holds .int (.int i)
  | long (i : Int64) : Holds .long (.long i)
  | float (x : Number.Single) : Holds .float (.float x)
  | double (x : Number.Double) : Holds .double (.double x)
  | string (s : String) : Holds .string (.string s)
  | datetime (seconds : Int64) : Holds .datetime (.datetime seconds)

/-- The names between the bars of a text. -/
def flagNames (text : String) : List String :=
  (text.toList.splitOn '|').map fun part => String.ofList (Text.trim part)

/-- The bits of some items together. -/
def flagBits (items : List EnumItem) : Int32 := items.foldl (fun bits i => bits ||| i.value) 0

/-- A value of an enum is one of its items or, for an enum of flags, a text with bars and the bits of
the items that stand between them. -/
inductive EnumDef.Holds (e : EnumDef) : Value → Prop
  | item {i : EnumItem} : i ∈ e.items → Holds e (.enum i.name i.value)
  | flags {text : String} {items : List EnumItem} : e.flags = true → '|' ∈ text.toList →
      (flagNames text).mapM e.item? = some items → Holds e (.enum text (flagBits items))

namespace Declarations

/-- A value for a bean `d` whose concrete type is `c`, as far as the fields' names: `c` is `d` or
stands below it and is not abstract, and the value is tagged when `d` is not alone in its tree. -/
structure InstanceOf (ds : Declarations) (d c : BeanDef) (b : BeanValue) : Prop where
  typeName : b.typeName = c.fullName
  related : c = d ∨ ds.Below d c
  concrete : c.isAbstract = false
  tagged : b.tagged = true ↔ (∃ below, ds.Below d below) ∨ d.parent.isSome
  names : b.fields.map (·.1) = (ds.hierarchyFields c).map (·.2.name)

/-- An instance has a value for each field of its concrete type. -/
theorem InstanceOf.exists_value {ds : Declarations} {d c : BeanDef} {b : BeanValue}
    (h : ds.InstanceOf d c b) {f : BeanDef × FieldDef} (hf : f ∈ ds.hierarchyFields c) :
    ∃ v, (f, f.2.name, v) ∈ (ds.hierarchyFields c).zip b.fields := by
  obtain ⟨⟨name, v⟩, hzip, rfl⟩ := exists_zip_of_mem h.names hf
  exact ⟨v, hzip⟩

/-- The values that a place of a type may hold, for a field of the bean `scope`. -/
inductive Conforms (ds : Declarations) : BeanDef → TypeExpr → Value → Prop
  | primitive {scope : BeanDef} {p : Primitive} {v : Value} : p.Holds v →
      Conforms ds scope (.primitive p) v
  | enum {scope : BeanDef} {name : String} {e : EnumDef} {v : Value} :
      ds.fieldRef? scope name = some (.enum e) → e.Holds v → Conforms ds scope (.named name) v
  | bean {scope d c : BeanDef} {name : String} {b : BeanValue} :
      ds.fieldRef? scope name = some (.bean d) → ds.InstanceOf d c b →
      (∀ p ∈ (ds.hierarchyFields c).zip b.fields, Conforms ds p.1.1 p.1.2.type p.2.2) →
      Conforms ds scope (.named name) b.toValue
  | seq {scope : BeanDef} {kind : Sequence} {element : TypeExpr} {items : List Value} :
      (∀ v ∈ items, Conforms ds scope element v) →
      Conforms ds scope (.sequence kind element) (.seq items)
  | map {scope : BeanDef} {key value : TypeExpr} {entries : List (Value × Value)} :
      (∀ e ∈ entries, Conforms ds scope key e.1) → (∀ e ∈ entries, Conforms ds scope value e.2) →
      Conforms ds scope (.map key value) (.map entries)
  | null {scope : BeanDef} {type : TypeExpr} : Conforms ds scope (.nullable type) .null
  | present {scope : BeanDef} {type : TypeExpr} {v : Value} : Conforms ds scope type v →
      Conforms ds scope (.nullable type) v

/-- A row of a bean: an instance whose fields hold what their types may hold. -/
def ConformsTo (ds : Declarations) (d : BeanDef) (b : BeanValue) : Prop :=
  ∃ c, ds.InstanceOf d c b ∧
    ∀ p ∈ (ds.hierarchyFields c).zip b.fields, ds.Conforms p.1.1 p.1.2.type p.2.2

variable {ds : Declarations} {scope : BeanDef} {location : String}

/-- No bean declares a field of a name. -/
def NoFieldNamed (ds : Declarations) (name : String) : Prop :=
  ∀ b, .bean b ∈ ds → ∀ f ∈ b.fields, f.name ≠ name

instance (ds : Declarations) (name : String) : Decidable (ds.NoFieldNamed name) :=
  decidable_of_iff (∀ b ∈ ds.filterMap TypeDef.bean?, ∀ f ∈ b.fields, f.name ≠ name) <| by
    simp only [mem_filterMap_bean?_iff, NoFieldNamed]

/-- The concrete type of an instance of a declared bean is declared. -/
theorem InstanceOf.declared {d c : BeanDef} {b : BeanValue} (h : ds.InstanceOf d c b)
    (hd : .bean d ∈ ds) : .bean c ∈ ds := by
  rcases h.related with rfl | hbelow
  · exact hd
  · exact hbelow.declared

/-- An instance gives no field twice. -/
theorem InstanceOf.nodup_names {g : TypeGraph} {d c : BeanDef} {b : BeanValue}
    (h : g.types.InstanceOf d c b) (hd : .bean d ∈ g.types) : (b.fields.map (·.1)).Nodup :=
  h.names ▸ (g.fields_checked (h.declared hd)).1

theorem InstanceOf.not_mem_names {g : TypeGraph} {d c : BeanDef} {b : BeanValue} {name : String}
    (h : g.types.InstanceOf d c b) (hd : .bean d ∈ g.types) (hfree : g.types.NoFieldNamed name) :
    name ∉ b.fields.map (·.1) := by
  rw [h.names]
  intro hmem
  obtain ⟨f, hf, hname⟩ := List.mem_map.1 hmem
  obtain ⟨howner, hfield⟩ := g.declared_of_mem_hierarchyFields (h.declared hd) hf
  exact hfree f.1 howner f.2 hfield hname

theorem Conforms.of_core {type : TypeExpr} {v : Value} (h : ds.Conforms scope type.core v) :
    ds.Conforms scope type v := by
  induction type with
  | nullable inner ih => exact .present (ih h)
  | primitive _ => exact h
  | named _ => exact h
  | sequence _ _ _ => exact h
  | map _ _ _ _ => exact h

theorem Conforms.of_entries {key value : TypeExpr} {entries : List (Value × Value)}
    (h : ∀ e ∈ entries, ds.Conforms scope key e.1 ∧ ds.Conforms scope value e.2) :
    ds.Conforms scope (.map key value) (.map entries) :=
  .map (fun e he => (h e he).1) fun e he => (h e he).2

end Declarations

/-! ### Values without parts -/

theorem Primitive.holds_of_read {p : Primitive} {j : Json} {v : Value} (h : p.read j = .ok v) :
    p.Holds v := by
  cases p with
  | bool =>
    obtain ⟨b, _, rfl⟩ := map_eq_ok_iff.1 h
    exact .bool b
  | int =>
    obtain ⟨i, _, h⟩ := bind_eq_ok_iff.1 h
    split at h
    · cases h
      exact .int _
    · cases h
  | long =>
    obtain ⟨i, _, rfl⟩ := map_eq_ok_iff.1 h
    exact .long _
  | float =>
    obtain ⟨x, _, rfl⟩ := map_eq_ok_iff.1 h
    exact .float _
  | double =>
    obtain ⟨x, _, rfl⟩ := map_eq_ok_iff.1 h
    exact .double x
  | string =>
    cases j <;> cases h <;> exact .string _
  | datetime =>
    cases j with
    | number n =>
      obtain ⟨i, _, rfl⟩ := map_eq_ok_iff.1 h
      exact .datetime _
    | string s =>
      simp only [read] at h
      split at h <;> cases h
      exact .datetime _
    | null => cases h
    | bool _ => cases h
    | array _ => cases h
    | object _ => cases h

namespace EnumDef
variable {e : EnumDef}

theorem holds_of_readValue {value : Int} {v : Value} (h : e.readValue value = .ok v) :
    e.Holds v := by
  unfold readValue at h
  by_cases hfits : Number.fitsInt32 value
  · cases hitem : e.itemOfValue? (.ofInt value) with
    | none => simp [hfits, hitem] at h
    | some i =>
      simp only [hfits, if_true, hitem, Except.ok.injEq] at h
      exact h ▸ .item (List.mem_of_find?_eq_some hitem)
  · simp [hfits] at h

theorem readName_eq_ok_iff {name : String} {i : EnumItem} :
    e.readName name = .ok i ↔ e.item? name = some i := by
  unfold readName
  cases e.item? name <;> simp

/-- Reading a combination finds every name and puts the bits of their items together. -/
theorem combine_eq_ok {names : List String} {start bits : Int32}
    (h : e.combine start names = .ok bits) : ∃ items, names.mapM e.item? = some items ∧
      bits = items.foldl (fun bits i => bits ||| i.value) start := by
  induction names generalizing start with
  | nil =>
    cases h
    exact ⟨[], rfl, rfl⟩
  | cons name rest ih =>
    obtain ⟨i, hi, h⟩ := bind_eq_ok_iff.1 h
    obtain ⟨items, hitems, rfl⟩ := ih h
    refine ⟨i :: items, ?_, rfl⟩
    rw [List.mapM_cons, readName_eq_ok_iff.1 hi, hitems]
    rfl

theorem holds_of_readText {text : List Char} {v : Value} (h : e.readText text = .ok v) :
    e.Holds v := by
  unfold readText at h
  split at h
  · exact holds_of_readValue h
  · split at h
    · rename_i hflags
      simp only [Bool.and_eq_true, decide_eq_true_eq] at hflags
      obtain ⟨bits, hbits, rfl⟩ := map_eq_ok_iff.1 h
      obtain ⟨items, hitems, rfl⟩ := combine_eq_ok hbits
      refine .flags hflags.1 (by simpa using hflags.2) ?_
      simpa [flagNames] using hitems
    · obtain ⟨i, hi, rfl⟩ := map_eq_ok_iff.1 h
      exact .item (List.mem_of_find?_eq_some (readName_eq_ok_iff.1 hi))

theorem holds_of_read {j : Json} {v : Value} (h : e.read j = .ok v) : e.Holds v := by
  cases j with
  | number n =>
    obtain ⟨i, _, h⟩ := bind_eq_ok_iff.1 h
    exact holds_of_readValue h
  | string s => exact holds_of_readText h
  | null => cases h
  | bool _ => cases h
  | array _ => cases h
  | object _ => cases h

end EnumDef

/-! ### Readers -/

/-- A reader whose values conform to the type that it is told. -/
def ValueReader.Sound (ds : Declarations) (read : ValueReader) : Prop :=
  ∀ scope type location v, read scope type location = .ok v → ds.Conforms scope type v

open Declarations (Conforms InstanceOf ConformsTo)

section Readers
variable {ds : Declarations} {scope : BeanDef} {location : String}

theorem at_eq_ok_iff {α : Type} {reading : Reading α} {a : α} :
    reading.at location = .ok a ↔ reading = .ok a := mapError_eq_ok_iff

theorem sound_readNull : ValueReader.Sound ds readNull := by
  intro scope type location v h
  cases type <;> cases h
  exact .null

theorem sound_readPlain (j : Json) : ValueReader.Sound ds (readPlain ds j) := by
  intro scope type location v h
  unfold readPlain at h
  refine .of_core ?_
  split at h
  · rename_i p hcore
    exact hcore ▸ .primitive (Primitive.holds_of_read (at_eq_ok_iff.1 h))
  · rename_i name hcore
    split at h
    · rename_i e href
      exact hcore ▸ .enum href (EnumDef.holds_of_read (at_eq_ok_iff.1 h))
    · cases h
    · cases h
  · cases h
  · cases h
  · rename_i inner hcore
    exact absurd hcore (TypeExpr.core_ne_nullable type inner)

theorem conforms_readItems {element : TypeExpr} {readers : List ValueReader}
    (hreaders : ∀ read ∈ readers, ValueReader.Sound ds read) {index : Nat} {items : List Value}
    (h : readItems scope element location index readers = .ok items) :
    ∀ v ∈ items, ds.Conforms scope element v := by
  induction readers generalizing index items with
  | nil => cases h; simp
  | cons read rest ih =>
    rw [List.forall_mem_cons] at hreaders
    obtain ⟨v, hv, h⟩ := bind_eq_ok_iff.1 h
    obtain ⟨vs, hvs, h⟩ := bind_eq_ok_iff.1 h
    cases h
    exact List.forall_mem_cons.2 ⟨hreaders.1 _ _ _ _ hv, ih hreaders.2 hvs⟩

theorem conforms_readPairs {key value : TypeExpr}
    {readers : List (Option (ValueReader × ValueReader))}
    (hreaders : ∀ pair, some pair ∈ readers →
      ValueReader.Sound ds pair.1 ∧ ValueReader.Sound ds pair.2)
    {index : Nat} {entries : List (Value × Value)}
    (h : readPairs scope key value location index readers = .ok entries) :
    ∀ e ∈ entries, ds.Conforms scope key e.1 ∧ ds.Conforms scope value e.2 := by
  induction readers generalizing index entries with
  | nil => cases h; simp
  | cons reader rest ih =>
    cases reader with
    | none => cases h
    | some pair =>
      obtain ⟨k, hk, h⟩ := bind_eq_ok_iff.1 h
      obtain ⟨v, hv, h⟩ := bind_eq_ok_iff.1 h
      obtain ⟨es, hes, h⟩ := bind_eq_ok_iff.1 h
      cases h
      have hpair := hreaders pair List.mem_cons_self
      refine List.forall_mem_cons.2 ⟨⟨hpair.1 _ _ _ _ hk, hpair.2 _ _ _ _ hv⟩, ?_⟩
      exact ih (fun p hp => hreaders p (List.mem_cons_of_mem _ hp)) hes

theorem conforms_readEntries {key value : TypeExpr} {members : List (String × ValueReader)}
    (hmembers : ∀ m ∈ members, ValueReader.Sound ds m.2) {entries : List (Value × Value)}
    (h : readEntries ds scope key value location members = .ok entries) :
    ∀ e ∈ entries, ds.Conforms scope key e.1 ∧ ds.Conforms scope value e.2 := by
  induction members generalizing entries with
  | nil => cases h; simp
  | cons m rest ih =>
    rw [List.forall_mem_cons] at hmembers
    obtain ⟨k, hk, h⟩ := bind_eq_ok_iff.1 h
    obtain ⟨v, hv, h⟩ := bind_eq_ok_iff.1 h
    obtain ⟨es, hes, h⟩ := bind_eq_ok_iff.1 h
    cases h
    refine List.forall_mem_cons.2 ⟨⟨?_, hmembers.1 _ _ _ _ hv⟩, ih hmembers.2 hes⟩
    exact sound_readPlain _ _ _ _ _ hk

/-- The fields that are read are those asked for, in order, and each conforms in its own scope. -/
theorem conforms_readFields {members : List (String × ValueReader)}
    (hmembers : ∀ m ∈ members, ValueReader.Sound ds m.2) {fields : List (BeanDef × FieldDef)}
    {values : List (String × Value)} (h : readFields location members fields = .ok values) :
    values.map (·.1) = fields.map (·.2.name) ∧
      ∀ p ∈ fields.zip values, ds.Conforms p.1.1 p.1.2.type p.2.2 := by
  induction fields generalizing values with
  | nil => cases h; simp
  | cons field rest ih =>
    obtain ⟨v, hv, h⟩ := bind_eq_ok_iff.1 h
    obtain ⟨vs, hvs, h⟩ := bind_eq_ok_iff.1 h
    cases h
    obtain ⟨hnames, hrest⟩ := ih hvs
    refine ⟨by simp [hnames], ?_⟩
    rw [List.zip_cons_cons]
    refine List.forall_mem_cons.2 ⟨?_, hrest⟩
    -- the reader of the field is that of its member, or that of a missing value
    cases hfind : members.find? (·.1 = field.2.name) with
    | none => simp only [hfind] at hv; exact sound_readNull _ _ _ _ hv
    | some m =>
      simp only [hfind] at hv
      exact hmembers m (List.mem_of_find?_eq_some hfind) _ _ _ _ hv

theorem sound_readArray {j : Json} {items : List ValueReader}
    {pairs : List (Option (ValueReader × ValueReader))}
    (hitems : ∀ read ∈ items, ValueReader.Sound ds read)
    (hpairs : ∀ pair, some pair ∈ pairs →
      ValueReader.Sound ds pair.1 ∧ ValueReader.Sound ds pair.2) :
    ValueReader.Sound ds (readArray ds j items pairs) := by
  intro scope type location v h
  unfold readArray at h
  split at h
  · rename_i kind element hcore
    obtain ⟨vs, hvs, rfl⟩ := map_eq_ok_iff.1 h
    exact .of_core (hcore ▸ .seq (conforms_readItems hitems hvs))
  · rename_i key value hcore
    obtain ⟨es, hes, rfl⟩ := map_eq_ok_iff.1 h
    exact .of_core (hcore ▸ .of_entries (conforms_readPairs hpairs hes))
  · exact sound_readPlain j _ _ _ _ h

/-- An object is an instance of the declared bean or of one that stands below it. -/
theorem related_of_concreteBean {g : TypeGraph} {d c : BeanDef} {typeName : Option String}
    (hd : .bean d ∈ g.types) (h : concreteBean g.types d typeName = .ok c) :
    c = d ∨ g.types.Below d c := by
  cases typeName with
  | none =>
    cases h
    exact .inl rfl
  | some typeName =>
    simp only [concreteBean] at h
    split at h
    · rename_i b hfind
      cases h
      exact (List.mem_cons.1 (List.mem_of_find?_eq_some hfind)).imp_right (g.mem_descendants_iff hd).1
    · cases h

theorem isPolymorphic_iff {g : TypeGraph} {d : BeanDef} (hd : .bean d ∈ g.types) :
    isPolymorphic g.types d = true ↔ (∃ c, g.types.Below d c) ∨ d.parent.isSome := by
  rw [isPolymorphic, Bool.or_eq_true, Bool.not_eq_true', List.isEmpty_eq_false_iff_exists_mem]
  simp only [g.mem_descendants_iff hd]

/-- What is read is an instance of the declared bean by the concrete type that the object chose. -/
theorem instanceOf_readBean {g : TypeGraph} {d : BeanDef} {reserved : List String}
    {typeName : Option String} {members : List (String × ValueReader)} {b : BeanValue}
    (hd : .bean d ∈ g.types) (hmembers : ∀ m ∈ members, ValueReader.Sound g.types m.2)
    (h : readBean g.types reserved typeName members d location = .ok b) :
    ∃ c, concreteBean g.types d typeName = .ok c ∧ g.types.InstanceOf d c b ∧
      ∀ p ∈ (g.types.hierarchyFields c).zip b.fields, g.types.Conforms p.1.1 p.1.2.type p.2.2 := by
  obtain ⟨c, hc, h⟩ := bind_eq_ok_iff.1 h
  rw [at_eq_ok_iff] at hc
  have hrelated := related_of_concreteBean hd hc
  split at h
  · cases h
  · rename_i hconcrete
    dsimp only at h
    split at h
    · cases h
    · obtain ⟨values, hvalues, h⟩ := bind_eq_ok_iff.1 h
      cases h
      obtain ⟨hnames, hfields⟩ := conforms_readFields hmembers hvalues
      exact ⟨c, hc, ⟨rfl, hrelated, by simpa using hconcrete, isPolymorphic_iff hd, hnames⟩, hfields⟩

theorem conformsTo_readBean {g : TypeGraph} {d : BeanDef} {reserved : List String}
    {typeName : Option String} {members : List (String × ValueReader)} {b : BeanValue}
    (hd : .bean d ∈ g.types) (hmembers : ∀ m ∈ members, ValueReader.Sound g.types m.2)
    (h : readBean g.types reserved typeName members d location = .ok b) :
    g.types.ConformsTo d b := by
  obtain ⟨c, _, hconforms⟩ := instanceOf_readBean hd hmembers h
  exact ⟨c, hconforms⟩

theorem sound_readObject {g : TypeGraph} {j : Json} {members : List (String × ValueReader)}
    (hmembers : ∀ m ∈ members, ValueReader.Sound g.types m.2) :
    ValueReader.Sound g.types (readObject g.types j members) := by
  intro scope type location v h
  unfold readObject at h
  split at h
  · rename_i key value hcore
    obtain ⟨es, hes, rfl⟩ := map_eq_ok_iff.1 h
    exact .of_core (hcore ▸ .of_entries (conforms_readEntries hmembers hes))
  · rename_i name hcore
    split at h
    · rename_i d href
      obtain ⟨b, hb, rfl⟩ := map_eq_ok_iff.1 h
      obtain ⟨c, hinstance, hfields⟩ :=
        conformsTo_readBean (Declarations.mem_of_fieldRef?_eq_some href) hmembers hb
      exact .of_core (hcore ▸ .bean href hinstance hfields)
    · exact sound_readPlain j _ _ _ _ h
  · exact sound_readPlain j _ _ _ _ h

mutual

/-- The reader of a document is sound, because the readers of its parts are. -/
theorem sound_reader (g : TypeGraph) : (j : Json) → ValueReader.Sound g.types (j.reader g.types)
  | .null => sound_readNull
  | .bool b => sound_readPlain (.bool b)
  | .number n => sound_readPlain (.number n)
  | .string s => sound_readPlain (.string s)
  | .array items => sound_readArray (sound_itemReaders g items) (sound_pairReaders g items)
  | .object members => sound_readObject (sound_memberReaders g members)

theorem sound_itemReaders (g : TypeGraph) : (items : List Json) →
    ∀ read ∈ Json.itemReaders g.types items, ValueReader.Sound g.types read
  | [] => by simp [Json.itemReaders]
  | j :: rest => List.forall_mem_cons.2 ⟨sound_reader g j, sound_itemReaders g rest⟩

theorem sound_pairReaders (g : TypeGraph) : (items : List Json) →
    ∀ pair, some pair ∈ Json.pairReaders g.types items →
      ValueReader.Sound g.types pair.1 ∧ ValueReader.Sound g.types pair.2
  | [] => by simp [Json.pairReaders]
  | .array [k, v] :: rest => by
    intro pair hpair
    rcases List.mem_cons.1 hpair with hpair | hpair
    · cases hpair
      exact ⟨sound_reader g k, sound_reader g v⟩
    · exact sound_pairReaders g rest pair hpair
  | .array [] :: rest | .array [_] :: rest | .array (_ :: _ :: _ :: _) :: rest | .null :: rest
  | .bool _ :: rest | .number _ :: rest | .string _ :: rest | .object _ :: rest => by
    intro pair hpair
    exact sound_pairReaders g rest pair (by simpa [Json.pairReaders] using hpair)

theorem sound_memberReaders (g : TypeGraph) : (members : List (String × Json)) →
    ∀ m ∈ Json.memberReaders g.types members, ValueReader.Sound g.types m.2
  | [] => by simp [Json.memberReaders]
  | (_, j) :: rest => List.forall_mem_cons.2 ⟨sound_reader g j, sound_memberReaders g rest⟩

end

/-- The data of a row that is read conform to the row bean of the table. -/
theorem conformsTo_readRecord {g : TypeGraph} {t : TableDef} {row : Json} {r : Record} {d : BeanDef}
    (hd : g.types.bean? t.valueType = some d) (h : g.readRecord t location row = .ok r) :
    g.types.ConformsTo d r.data := by
  simp only [TypeGraph.readRecord, hd] at h
  obtain ⟨tags, _, h⟩ := bind_eq_ok_iff.1 h
  obtain ⟨data, hdata, h⟩ := bind_eq_ok_iff.1 h
  cases h
  cases row with
  | object members =>
    exact conformsTo_readBean (g.bean?_eq_some_iff.1 hd).1 (sound_memberReaders g members) hdata
  | null => cases hdata
  | bool _ => cases hdata
  | number _ => cases hdata
  | string _ => cases hdata
  | array _ => cases hdata

end Readers

/-! ### Rows -/

/-- Every row that is read conforms to the row bean of its table, at every depth. -/
theorem readRecord_conforms (g : TypeGraph) (t : TableDef) (location : String) (row : Json)
    (r : Record) (h : g.readRecord t location row = .ok r) :
    ∃ d, g.types.bean? t.valueType = some d ∧ g.types.ConformsTo d r.data := by
  cases hd : g.types.bean? t.valueType with
  | none => simp [TypeGraph.readRecord, hd] at h
  | some d => exact ⟨d, rfl, conformsTo_readRecord hd h⟩

namespace Shapes

/-- A table of shapes. -/
def table : TableDef := ⟨"", "TbShape", "Shape", some "id", .map, [], none, none⟩

/-- Shapes with colors that are flags; a group is a shape made of shapes. -/
def graph : TypeGraph where
  types :=
    [.enum ⟨"", "Color", true, [], [⟨"Red", 1, none, none⟩, ⟨"Green", 2, some "g", none⟩], none⟩,
      .bean ⟨"", "Shape", none, true, [],
        [⟨"id", .primitive .int, none⟩, ⟨"color", .nullable (.named "Color"), none⟩], none⟩,
      .bean ⟨"", "Group", some "Shape", false, [],
        [⟨"scale", .nullable (.primitive .float), none⟩,
          ⟨"parts", .map (.primitive .string) (.named "Shape"), none⟩], none⟩,
      .table table]
  consistent := by decide

/-- A group of one group, which is empty. -/
def row : Json :=
  .object [("$type", .string "Group"), ("id", .int 1), ("parts", .object [("left", .object
    [("$type", .string "Group"), ("id", .string " 7 "), ("color", .string "Red | g"),
      ("parts", .array [])])])]

/-- The record of this row. -/
def record : Record where
  data := ⟨"Group", true, [("id", .int 1), ("color", .null), ("scale", .null),
    ("parts", .map [(.string "left", .bean "Group" true [("id", .int 7),
      ("color", .enum "Red | g" 3), ("scale", .null), ("parts", .map [])])])]⟩
  tags := []
  source := some "shapes"

theorem record_conforms : graph.readRecord table "shapes" row = .ok record ∧
    ∃ d, graph.types.bean? "Shape" = some d ∧ graph.types.ConformsTo d record.data :=
  ⟨rfl, readRecord_conforms graph table "shapes" row record rfl⟩

end Shapes

end ConfigTables
