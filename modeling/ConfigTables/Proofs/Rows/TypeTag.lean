import ConfigTables.Proofs.Rows.Conformance
import ConfigTables.Proofs.Rows.Exported
import Mathlib.Data.List.TakeWhile

/-!
    What becomes of the type of an instance in its exported form, and of the exported type when it is
    read again. An object names its type by the full name or the name of a bean, and the first bean
    that either fits is taken; an export writes the full name, next to the fields. So the type is
    found again except in two cases, and `typeTag_survives_iff` says that these are the only ones: a
    field has the name of the member that holds the type, or a bean that is tried earlier has the full
    name of the type for its name. -/

namespace ConfigTables

/-- The type that an object names. -/
def Json.typeName? (members : List (String × Json)) : Option String :=
  ((object members).member? Value.typeKey).bind asString?

/-- Reads an object as an instance of a bean; members with a name in `reserved` are passed over. -/
def readInstance (ds : Declarations) (reserved : List String) (d : BeanDef) (location : String)
    (members : List (String × Json)) : Except DataError BeanValue :=
  readBean ds reserved (Json.typeName? members) (Json.memberReaders ds members) d location

theorem readRow_object (ds : Declarations) (d : BeanDef) (location : String)
    (members : List (String × Json)) :
    readRow ds d location (.object members) = readInstance ds [tagsKey] d location members := rfl

/-- The beans that an object for `d` may name, in the order in which they are tried. -/
def Declarations.candidates (ds : Declarations) (d : BeanDef) : List BeanDef :=
  d :: ds.descendants d.fullName

/-- A bean that is tried before `c` has the full name of `c` for its name. -/
def Declarations.Captured (ds : Declarations) (d c : BeanDef) : Prop :=
  ∃ x ∈ (ds.candidates d).takeWhile (· ≠ c), x.name = c.fullName

/-- No bean has the full name of another one for its name. -/
def Declarations.NamesApart (ds : Declarations) : Prop :=
  ∀ b c, .bean b ∈ ds → .bean c ∈ ds → b.name = c.fullName → b = c

instance (ds : Declarations) : Decidable ds.NamesApart :=
  decidable_of_iff (∀ b ∈ ds.filterMap TypeDef.bean?, ∀ c ∈ ds.filterMap TypeDef.bean?,
      b.name = c.fullName → b = c) <| by
    simp only [Declarations.mem_filterMap_bean?_iff, Declarations.NamesApart]
    exact ⟨fun h b c hb hc => h b hb c hc, fun h b hb c hc => h b c hb hc⟩

section
variable {g : TypeGraph} {d c : BeanDef} {b : BeanValue}

theorem mem_candidates_iff (hd : .bean d ∈ g.types) :
    c ∈ g.types.candidates d ↔ c = d ∨ g.types.Below d c := by
  rw [Declarations.candidates, List.mem_cons, g.mem_descendants_iff hd]

theorem declared_of_mem_candidates (hd : .bean d ∈ g.types) (hc : c ∈ g.types.candidates d) :
    .bean c ∈ g.types := by
  rcases (mem_candidates_iff hd).1 hc with rfl | hbelow
  · exact hd
  · exact hbelow.declared

theorem concreteBean_eq_ok_iff {ds : Declarations} {typeName : String} :
    concreteBean ds d (some typeName) = .ok c ↔
      (ds.candidates d).find? (fun x => x.fullName = typeName || x.name = typeName) = some c := by
  rw [concreteBean, Declarations.candidates]
  cases (d :: ds.descendants d.fullName).find? fun x =>
      x.fullName = typeName || x.name = typeName with
  | none => simp
  | some found => simp

/-- A type that an object may name is found by its full name unless another bean captures that. -/
theorem concreteBean_fullName_iff (hd : .bean d ∈ g.types) (hc : c ∈ g.types.candidates d) :
    concreteBean g.types d (some c.fullName) = .ok c ↔ ¬g.types.Captured d c := by
  rw [concreteBean_eq_ok_iff, find?_eq_some_iff_takeWhile hc (by simp), Declarations.Captured]
  push Not
  refine forall₂_congr fun x hx => ?_
  -- another bean has another full name, so only its name can fit
  have hne : x ≠ c := by simpa using List.mem_takeWhile_imp hx
  have hother : x.fullName ≠ c.fullName := by
    intro hsame
    have hxd := declared_of_mem_candidates hd (List.takeWhile_subset _ hx)
    have heq : TypeDef.bean x = .bean c :=
      g.eq_of_fullName_eq hxd (declared_of_mem_candidates hd hc) hsame
    exact hne (TypeDef.bean.inj heq)
  simp [hother]

theorem not_captured (hd : .bean d ∈ g.types) (hc : c ∈ g.types.candidates d)
    (hapart : g.types.NamesApart) : ¬g.types.Captured d c := by
  rintro ⟨x, hx, hname⟩
  have hne : x ≠ c := by simpa using List.mem_takeWhile_imp hx
  have hxd := declared_of_mem_candidates hd (List.takeWhile_subset _ hx)
  exact hne (hapart x c hxd (declared_of_mem_candidates hd hc) hname)

/-- What the member for the type holds: a field of this name comes last and hides the type. -/
theorem BeanValue.member?_typeKey_iff {b : BeanValue} (hnodup : (b.fields.map (·.1)).Nodup)
    (htagged : b.tagged = true) {j : Json} :
    b.toJson.member? Value.typeKey = some j ↔
      match b.field? Value.typeKey with
      | some v => v.toJson = j
      | none => .string b.typeName = j := by
  rw [field?]
  cases hfind : b.fields.find? (·.1 = Value.typeKey) with
  | none =>
    have hkey : Value.typeKey ∉ b.fields.map (·.1) := by
      intro hmem
      obtain ⟨f, hf, hname⟩ := List.mem_map.1 hmem
      simpa [hname] using List.find?_eq_none.1 hfind f hf
    rw [member?_typeKey hnodup hkey htagged, Option.some.injEq]
    rfl
  | some f =>
    obtain ⟨name, v⟩ := f
    have hname : name = Value.typeKey := by simpa using List.find?_some hfind
    subst hname
    rw [member?_field hnodup (List.mem_of_find?_eq_some hfind), Option.some.injEq]
    rfl

/-- The type of an exported instance of a declared bean is its concrete type, exactly unless a field
takes its place; and it is read back as that type exactly unless a bean that is tried earlier has the
type's full name for its name. Then whatever object names it is an instance of that type. -/
theorem typeTag_survives_iff (g : TypeGraph) (d : BeanDef) (hd : .bean d ∈ g.types)
    (reserved : List String) (location : String) (members : List (String × Json)) (b : BeanValue)
    (hread : readInstance g.types reserved d location members = .ok b) (htagged : b.tagged = true) :
    ∃ c, g.types.InstanceOf d c b ∧
      (b.toJson.member? Value.typeKey = some (.string c.fullName) ↔
        ∀ v, b.field? Value.typeKey = some v → v.toJson = .string c.fullName) ∧
      (concreteBean g.types d (some c.fullName) = .ok c ↔ ¬g.types.Captured d c) ∧
      (¬g.types.Captured d c → ∀ reserved' location' members' b',
        Json.typeName? members' = some c.fullName →
        readInstance g.types reserved' d location' members' = .ok b' →
        g.types.InstanceOf d c b') := by
  obtain ⟨c, _, hinstance, _⟩ := instanceOf_readBean hd (sound_memberReaders g members) hread
  have hc : c ∈ g.types.candidates d := (mem_candidates_iff hd).2 hinstance.related
  refine ⟨c, hinstance, ?_, concreteBean_fullName_iff hd hc, fun hfree reserved' location' members' b'
    htype hread' => ?_⟩
  · rw [BeanValue.member?_typeKey_iff (hinstance.nodup_names hd) htagged, hinstance.typeName]
    cases b.field? Value.typeKey <;> simp
  · rw [readInstance, htype] at hread'
    obtain ⟨c', hchosen, hinstance', _⟩ :=
      instanceOf_readBean hd (sound_memberReaders g members') hread'
    cases ((concreteBean_fullName_iff hd hc).2 hfree).symm.trans hchosen
    exact hinstance'

end

namespace Figures

/-- The bean above all figures, with some fields. -/
def shape (fields : List FieldDef) : BeanDef := ⟨"", "Shape", none, false, [], fields, none⟩

/-- A figure without fields of its own. -/
def figure (space name : String) : BeanDef := ⟨space, name, some "Shape", false, [], [], none⟩

/-- Figures with a field that has the name of the member for the type. -/
def labelled : TypeGraph where
  types := [.bean (shape [⟨"$type", .primitive .int, none⟩]), .bean (figure "" "Circle")]
  consistent := by decide

/-- Figures of which one has the full name of another one for its name. -/
def dotted : TypeGraph where
  types := [.bean (shape []), .bean (figure "ext" "geo.Circle"), .bean (figure "geo" "Circle")]
  consistent := by decide

/-- A figure of a type of the dotted ones. -/
def instanceOf (typeName : String) : BeanValue := ⟨typeName, true, []⟩

/-- The figure of the longer name keeps its type. -/
theorem ext_typeTag_survives :
    readInstance dotted.types [] (shape []) "figures[0]" [("$type", .string "geo.Circle")] =
        .ok (instanceOf "ext.geo.Circle") ∧ (instanceOf "ext.geo.Circle").tagged = true ∧
      ∃ c, dotted.types.InstanceOf (shape []) c (instanceOf "ext.geo.Circle") ∧
        (instanceOf "ext.geo.Circle").toJson.member? Value.typeKey = some (.string c.fullName) ∧
        concreteBean dotted.types (shape []) (some c.fullName) = .ok c := by
  have hread : readInstance dotted.types [] (shape []) "figures[0]"
      [("$type", .string "geo.Circle")] = .ok (instanceOf "ext.geo.Circle") := rfl
  obtain ⟨c, hinstance, htag, hfound, _⟩ := typeTag_survives_iff dotted (shape []) (by decide) []
    "figures[0]" [("$type", .string "geo.Circle")] (instanceOf "ext.geo.Circle") hread rfl
  refine ⟨hread, rfl, c, hinstance, htag.2 (by simp [BeanValue.field?, instanceOf]), hfound.2 ?_⟩
  rintro ⟨x, hx, hname⟩
  have hall : ∀ y ∈ dotted.types.candidates (shape []), y.name ≠ "ext.geo.Circle" := by decide
  exact hall x (List.takeWhile_subset _ hx) (hname.trans hinstance.typeName.symm)

/-- Types that do not survive: a labelled figure is exported with its label for its type, and a circle
with its full name, by which the next reader takes another figure. -/
theorem typeTag_lost :
    (∃ b, readInstance labelled.types [] (shape [⟨"$type", .primitive .int, none⟩]) "figures[0]"
          [("$type", .int 7)] = .ok b ∧ b.tagged = true ∧ b.typeName = "Shape" ∧
        b.toJson.member? Value.typeKey = some (.int 7)) ∧
      ∃ b b', readInstance dotted.types [] (shape []) "figures[0]" [("$type", .string "Circle")] =
          .ok b ∧ b.tagged = true ∧ b.typeName = "geo.Circle" ∧
        b.toJson.member? Value.typeKey = some (.string "geo.Circle") ∧
        readInstance dotted.types [] (shape []) "figures[0]" [("$type", .string "geo.Circle")] =
          .ok b' ∧ b'.typeName = "ext.geo.Circle" := by
  refine ⟨⟨⟨"Shape", true, [("$type", .int 7)]⟩, rfl, rfl, rfl, rfl⟩, ?_⟩
  exact ⟨instanceOf "geo.Circle", instanceOf "ext.geo.Circle", rfl, rfl, rfl, rfl, rfl, rfl⟩

end Figures

end ConfigTables
