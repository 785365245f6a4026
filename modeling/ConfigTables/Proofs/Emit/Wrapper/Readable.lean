import ConfigTables.Proofs.Emit.Wrapper.Declared
import ConfigTables.Proofs.Rows.Conformance
import ConfigTables.Proofs.Rows.Exported

/-!
    Generated code can read exported data. `Reads` says which documents the types of generated code
    take, as far as their declarations tell: numbers in range, options, arrays for vectors and pairs,
    a struct from an object with all its members, an enum of kinds by the tag of one of its variants,
    a plain enum from the number of a variant. The reader of rows and the generator decide each for
    themselves when a bean is one of several kinds; that both agree rests on the tree of beans. -/

namespace ConfigTables.Wrapper

mutual

/-- The documents that a type of generated code reads. -/
inductive Reads (n : Names) : TypeForm → Json → Prop
  | bool (b : Bool) : Reads n .bool (.bool b)
  | int32 {i : Int} : -2 ^ 31 ≤ i → i < 2 ^ 31 → Reads n .int32 (.int i)
  | int64 {i : Int} : -2 ^ 63 ≤ i → i < 2 ^ 63 → Reads n .int64 (.int i)
  | float32 (x : JsonNumber) : Reads n .float32 (.number x)
  | float64 (x : JsonNumber) : Reads n .float64 (.number x)
  | text (s : String) : Reads n .text (.string s)
  | item {e : EnumDef} {item : ItemDecl} : (n.enumDecl e).flags = false →
      item ∈ (n.enumDecl e).items → Reads n (.enum e) (.int item.value.toInt)
  | flags {e : EnumDef} {i : Int} : (n.enumDecl e).flags = true → -2 ^ 31 ≤ i → i < 2 ^ 31 →
      Reads n (.enum e) (.int i)
  | struct {b : BeanDef} {decl : BeanDecl} {j : Json} : n.beanDecl b = .ok decl →
      decl.hasKinds = false → ReadsStruct n decl j → Reads n (.bean b) j
  | kind {b c : BeanDef} {decl inner : BeanDecl} {variant : VariantDecl} {j : Json} :
      n.beanDecl b = .ok decl → decl.hasKinds = true → variant ∈ decl.variants →
      j.member? Value.typeKey = some (.string variant.tag) → n.types.bean? variant.tag = some c →
      n.beanDecl c = .ok inner → inner.ident = variant.ident → ReadsStruct n inner j →
      Reads n (.bean b) j
  | boxed {b : BeanDef} {j : Json} : Reads n (.bean b) j → Reads n (.boxed b) j
  | vector {element : TypeForm} {items : List Json} : (∀ j ∈ items, Reads n element j) →
      Reads n (.vector element) (.array items)
  | pairs {key value : TypeForm} {entries : List (Json × Json)} :
      (∀ e ∈ entries, Reads n key e.1) → (∀ e ∈ entries, Reads n value e.2) →
      Reads n (.pairs key value) (.array (entries.map fun e => .array [e.1, e.2]))
  | none {inner : TypeForm} : Reads n (.option inner) .null
  | some {inner : TypeForm} {j : Json} : Reads n inner j → Reads n (.option inner) j

/-- The documents that a struct reads: objects in which each field finds its member. -/
inductive ReadsStruct (n : Names) : BeanDecl → Json → Prop
  | object {decl : BeanDecl} {members : List (String × Json)} : decl.isAbstract = false →
      (∀ f ∈ decl.fields, ((Json.object members).member? f.member).isSome) →
      (∀ f ∈ decl.fields, ∀ j, (Json.object members).member? f.member = Option.some j →
        Reads n f.form j) →
      ReadsStruct n decl (.object members)

end

/-! ### Values without parts -/

theorem reads_int32 {n : Names} (i : Int32) : Reads n .int32 (.int i.toInt) :=
  .int32 i.le_toInt i.toInt_lt

theorem reads_int64 {n : Names} (i : Int64) : Reads n .int64 (.int i.toInt) :=
  .int64 i.le_toInt i.toInt_lt

/-- The exported form of a finite number is a number. -/
theorem exists_number {x : Number.Double} (h : x.isFinite) : ∃ k, Json.real x = .number k := by
  cases x with
  | finite y => exact ⟨.real y, rfl⟩
  | infinite _ => cases h
  | nan => cases h

theorem reads_primitive {n : Names} {p : Primitive} {v : Value} (h : p.Holds v)
    (hfinite : v.isFinite) : Reads n (.ofPrimitive p) v.toJson := by
  cases h with
  | bool b => exact .bool b
  | int i => exact reads_int32 i
  | long i => exact reads_int64 i
  | float x =>
    obtain ⟨k, hk⟩ := exists_number (Number.Binary.finite_widened hfinite).1
    rw [Value.toJson, hk]
    exact .float32 k
  | double x =>
    obtain ⟨k, hk⟩ := exists_number hfinite
    rw [Value.toJson, hk]
    exact .float64 k
  | string s => exact .text s
  | datetime seconds => exact reads_int64 seconds

/-- Leaving out items whose value came before leaves every value in. -/
theorem exists_mem_distinctValues {items : List EnumItem} {i : EnumItem} (hi : i ∈ items)
    (seen : List Int32) (hseen : i.value ∉ seen) :
    ∃ k ∈ distinctValues seen items, k.value = i.value := by
  induction items generalizing seen with
  | nil => cases hi
  | cons first rest ih =>
    rw [distinctValues]
    rcases List.mem_cons.1 hi with rfl | hi
    · rw [if_neg hseen]
      exact ⟨i, List.mem_cons_self, rfl⟩
    · split
      · exact ih hi seen hseen
      · by_cases hsame : i.value = first.value
        · exact ⟨first, List.mem_cons_self, hsame.symm⟩
        · obtain ⟨k, hk, hvalue⟩ := ih hi (first.value :: seen) (by simp [hsame, hseen])
          exact ⟨k, List.mem_cons_of_mem _ hk, hvalue⟩

theorem reads_enum {n : Names} {e : EnumDef} {v : Value} (h : e.Holds v) :
    Reads n (.enum e) v.toJson := by
  by_cases hflags : e.flags = true
  · cases h with
    | item _ => exact .flags hflags (Int32.le_toInt _) (Int32.toInt_lt _)
    | flags _ _ _ => exact .flags hflags (Int32.le_toInt _) (Int32.toInt_lt _)
  · cases h with
    | @item i hi =>
      obtain ⟨k, hk, hvalue⟩ := exists_mem_distinctValues hi [] (by simp)
      have hmem : n.itemDecl k ∈ (n.enumDecl e).items := by
        rw [Names.enumDecl, if_neg hflags]
        exact List.mem_map_of_mem hk
      have hreads := Reads.item (by simpa [Names.enumDecl] using hflags) hmem
      rwa [Names.itemDecl, hvalue] at hreads
    | flags htrue _ _ => exact absurd htrue hflags

/-! ### Beans -/

section Beans
variable {g : TypeGraph} {n : Names}

/-- The struct of the concrete type of an instance reads its exported form. -/
theorem readsStruct_instance {d c : BeanDef} {b : BeanValue} {decl : BeanDecl}
    (hn : n.types = g.types) (hd : .bean d ∈ g.types)
    (hinstance : g.types.InstanceOf d c b) (hdecl : n.beanDecl c = .ok decl)
    (hfields : ∀ p ∈ (g.types.hierarchyFields c).zip b.fields, ∀ form,
      TypeForm.ofType g.types p.1.1 true p.1.2.type = .ok form → Reads n form p.2.2.toJson) :
    ReadsStruct n decl b.toJson := by
  have hdescribes := Names.beanDecl_eq_ok hdecl
  have hnodup := hinstance.nodup_names hd
  -- each field of the struct has a value, and so a member
  have hmember : ∀ f ∈ decl.fields, ∃ p ∈ (g.types.hierarchyFields c).zip b.fields,
      TypeForm.ofType g.types p.1.1 true p.1.2.type = .ok f.form ∧
        b.toJson.member? f.member = some p.2.2.toJson := by
    intro f hf
    obtain ⟨field, hfield, hdecl⟩ := exists_of_mem_mapM hdescribes.fields hf
    obtain ⟨_, _, hname, hform⟩ := Names.fieldDecl_eq_ok hdecl
    rw [hn] at hfield hform
    obtain ⟨value, hzip⟩ := hinstance.exists_value hfield
    refine ⟨(field, field.2.name, value), hzip, hform, ?_⟩
    rw [hname]
    exact BeanValue.member?_field hnodup (List.of_mem_zip hzip).2
  rw [BeanValue.toJson_eq_ofMap, Json.ofMap] at hmember ⊢
  refine .object (hdescribes.isAbstract.trans hinstance.concrete) (fun f hf => ?_) fun f hf j hj => ?_
  · obtain ⟨p, _, _, hp⟩ := hmember f hf
    rw [hp]
    rfl
  · obtain ⟨p, hzip, hform, hp⟩ := hmember f hf
    rw [hp, Option.some.injEq] at hj
    exact hj ▸ hfields p hzip f.form hform

/-- The type of the values of a bean reads the exported form of an instance. With children it is the
enum of kinds, and then the instance is tagged with its concrete type, which is one of the variants;
without it is the struct, and then the concrete type is the bean itself. -/
theorem reads_instance {d c : BeanDef} {b : BeanValue} (hn : n.types = g.types)
    (hkey : g.types.NoFieldNamed Value.typeKey) (hd : .bean d ∈ g.types)
    (hinstance : g.types.InstanceOf d c b)
    (hfields : ∀ p ∈ (g.types.hierarchyFields c).zip b.fields, ∀ form,
      TypeForm.ofType g.types p.1.1 true p.1.2.type = .ok form → Reads n form p.2.2.toJson) :
    Reads n (.bean d) b.toJson := by
  obtain ⟨decl, hdecl⟩ := Names.exists_beanDecl hn hd
  have hdescribes := Names.beanDecl_eq_ok hdecl
  by_cases hhas : n.hasKinds d = true
  · have hc : .bean c ∈ g.types := hinstance.declared hd
    obtain ⟨inner, hinner⟩ := Names.exists_beanDecl hn hc
    have hvariant : ⟨n.structIdent c, c.fullName⟩ ∈ decl.variants :=
      (Names.mem_variants_iff hn hd hdecl).2
        ⟨hhas, c, hinstance.related, hinstance.concrete, rfl⟩
    have htag : b.toJson.member? Value.typeKey = some (.string c.fullName) := by
      rw [← hinstance.typeName]
      refine BeanValue.member?_typeKey (hinstance.nodup_names hd)
        (hinstance.not_mem_names hd hkey) ?_
      exact hinstance.tagged.2 (.inl ((Names.hasKinds_iff hn hd).1 hhas))
    have hbean : n.types.bean? c.fullName = some c := by
      rw [hn]
      exact g.bean?_eq_some_iff.2 ⟨hc, rfl⟩
    exact .kind hdecl (hdescribes.hasKinds.trans hhas) hvariant htag hbean hinner
      (Names.beanDecl_eq_ok hinner).ident (readsStruct_instance hn hd hinstance hinner hfields)
  · have hsame : c = d := hinstance.related.resolve_right fun hbelow =>
      hhas ((Names.hasKinds_iff hn hd).2 ⟨c, hbelow⟩)
    subst hsame
    rw [Bool.not_eq_true] at hhas
    exact .struct hdecl (hdescribes.hasKinds.trans hhas)
      (readsStruct_instance hn hd hinstance hdecl hfields)

/-- The form of a type reads the exported form of each finite value that conforms to the type. -/
theorem reads_toJson {scope : BeanDef} {type : TypeExpr} {v : Value} (hn : n.types = g.types)
    (hkey : g.types.NoFieldNamed Value.typeKey) (h : g.types.Conforms scope type v)
    (hfinite : v.isFinite) {box : Bool} {form : TypeForm}
    (hform : TypeForm.ofType g.types scope box type = .ok form) : Reads n form v.toJson := by
  induction h generalizing box form with
  | primitive hholds =>
    cases hform
    exact reads_primitive hholds hfinite
  | enum href hholds =>
    rw [TypeForm.ofType, href] at hform
    cases hform
    exact reads_enum hholds
  | @bean scope d c name b href hinstance _ ih =>
    rw [TypeForm.ofType, href] at hform
    have hreads : Reads n (.bean d) b.toJson := by
      refine reads_instance hn hkey (Declarations.mem_of_fieldRef?_eq_some href) hinstance ?_
      intro p hp form hform
      exact ih p hp (Value.fieldsFinite_iff.1 hfinite _ (List.of_mem_zip hp).2) hform
    cases box with
    | true => cases hform; exact .boxed hreads
    | false => cases hform; exact hreads
  | seq _ ih =>
    obtain ⟨element, helement, hform⟩ := bind_eq_ok_iff.1 hform
    cases hform
    rw [Value.toJson, Value.itemsToJson_eq_map]
    refine .vector (List.forall_mem_map.2 fun v hv => ?_)
    exact ih v hv (Value.itemsFinite_iff.1 hfinite v hv) helement
  | @map scope key value entries _ _ ihKey ihValue =>
    obtain ⟨k, hk, hform⟩ := bind_eq_ok_iff.1 hform
    obtain ⟨v, hv, hform⟩ := bind_eq_ok_iff.1 hform
    cases hform
    have hentries := Value.entriesFinite_iff.1 hfinite
    have hjson : (Value.map entries).toJson =
        .array ((entries.map fun e => (e.1.toJson, e.2.toJson)).map fun e => .array [e.1, e.2]) := by
      rw [Value.toJson, Value.entriesToJson_eq_map, List.map_map]
      rfl
    rw [hjson]
    refine .pairs (List.forall_mem_map.2 fun e he => ?_) (List.forall_mem_map.2 fun e he => ?_)
    · exact ihKey e he (hentries e he).1 hk
    · exact ihValue e he (hentries e he).2 hv
  | null =>
    obtain ⟨inner, _, hform⟩ := bind_eq_ok_iff.1 hform
    cases hform
    exact .none
  | present _ ih =>
    obtain ⟨inner, hinner, hform⟩ := bind_eq_ok_iff.1 hform
    cases hform
    exact .some (ih hfinite hinner)

/-- Generated code reads the exported form of every row. For a table of an accepted graph without a
field named like the type's member, and a row of finite numbers, the type that the table's declaration
gives its rows is that of the row bean, and it reads what is exported. -/
theorem exported_row_readable (g : TypeGraph) (style : Style)
    (hkey : g.types.NoFieldNamed Value.typeKey) (t : TableDef) (ht : .table t ∈ g.types)
    (location : String) (row : Json) (r : Record) (hread : g.readRecord t location row = .ok r)
    (hfinite : r.data.toValue.isFinite) :
    ∃ decl d, Names.exportedTable ⟨g.types, style⟩ t = .ok decl ∧
      g.types.bean? t.valueType = some d ∧
      decl.rowIdent = (TypeForm.bean d).render ⟨g.types, style⟩ ∧
      Reads ⟨g.types, style⟩ (.bean d) r.data.toJson := by
  obtain ⟨decl, d, hdecl, hd, hident⟩ :=
    Names.exists_exportedTable (n := ⟨g.types, style⟩) rfl ht
  obtain ⟨c, hinstance, hfields⟩ := conformsTo_readRecord hd hread
  refine ⟨decl, d, hdecl, hd, hident, ?_⟩
  refine reads_instance rfl hkey (g.bean?_eq_some_iff.1 hd).1 hinstance fun p hp form hform => ?_
  exact reads_toJson rfl hkey (hfields p hp)
    (Value.fieldsFinite_iff.1 hfinite _ (List.of_mem_zip hp).2) hform

end Beans

theorem record_readable : ∃ decl d,
    Names.exportedTable ⟨Shapes.graph.types, .underscored⟩ Shapes.table = .ok decl ∧
      Shapes.graph.types.bean? "Shape" = some d ∧
      decl.rowIdent = (TypeForm.bean d).render ⟨Shapes.graph.types, .underscored⟩ ∧
      Reads ⟨Shapes.graph.types, .underscored⟩ (.bean d) Shapes.record.data.toJson :=
  exported_row_readable Shapes.graph .underscored (by decide) Shapes.table (by simp [Shapes.graph])
    "shapes" Shapes.row Shapes.record rfl rfl

end ConfigTables.Wrapper
