import ConfigTables.Schema.Graph
import Mathlib.Data.List.Nodup

/-!
    What holding a type graph gives. Each check of `Declarations.fault?` answers nothing exactly when
    the property it is for holds; read off an accepted graph, that is: a full name stands for one
    declaration, a parent is a declared bean, the fields of a bean have different names and only
    mention enums and beans, and a table has a row bean that holds its index. -/

namespace ConfigTables

theorem firstRepeated?_eq_none_iff {seen names : List String} :
    firstRepeated? seen names = none ↔ names.Nodup ∧ ∀ name ∈ names, name ∉ seen := by
  induction names generalizing seen with
  | nil => simp [firstRepeated?]
  | cons name rest ih =>
    by_cases hseen : name ∈ seen
    · simp [firstRepeated?, hseen]
    · rw [firstRepeated?, if_neg hseen, ih, List.nodup_cons]
      grind

namespace Declarations

/-- The fields of a bean have no fault when their names differ from each other and from those seen,
and each one's type mentions only enums and beans and has no bad key. -/
theorem fieldFault?_eq_none_iff {ds : Declarations} {bean : BeanDef} {seen : List String}
    {fields : List (BeanDef × FieldDef)} :
    ds.fieldFault? bean seen fields = none ↔
      (fields.map (·.2.name)).Nodup ∧ (∀ f ∈ fields, f.2.name ∉ seen) ∧
        ∀ f ∈ fields, (∀ name ∈ f.2.type.names, ds.isValueType f.1 name) ∧
          ds.hasBadKey f.1 f.2.type = false := by
  induction fields generalizing seen with
  | nil => simp [fieldFault?]
  | cons f rest ih =>
    obtain ⟨owner, field⟩ := f
    by_cases hseen : field.name ∈ seen
    · simp [fieldFault?, hseen]
    · rw [fieldFault?, if_neg hseen]
      cases hfind : field.type.names.find? (!ds.isValueType owner ·) with
      | some name =>
        have hbad : ds.isValueType owner name = false := by simpa using List.find?_some hfind
        have hmem := List.mem_of_find?_eq_some hfind
        refine iff_of_false (by simp) fun ⟨_, _, hall⟩ => ?_
        exact absurd ((hall _ List.mem_cons_self).1 name hmem) (by simp [hbad])
      | none =>
        have hgood : ∀ name ∈ field.type.names, ds.isValueType owner name := by
          simpa using List.find?_eq_none.1 hfind
        by_cases hkey : ds.hasBadKey owner field.type
        · simp [hkey]
        · rw [Bool.not_eq_true] at hkey
          simp only [hkey, Bool.false_eq_true, if_false, ih, List.map_cons, List.nodup_cons,
            List.mem_cons, forall_eq_or_imp]
          grind

/-- A table has no fault when it has a row bean, and an index of that bean if it has any, as one of
the map mode must. -/
theorem tableFault?_eq_none_iff {ds : Declarations} {t : TableDef} :
    ds.tableFault? t = none ↔ ∃ row, ds.bean? t.valueType = some row ∧
      (∀ index, t.index = some index → ∃ f ∈ ds.hierarchyFields row, f.2.name = index) ∧
        (t.mode = .map → t.index.isSome) := by
  unfold tableFault?
  cases ds.bean? t.valueType with
  | none => simp
  | some row => cases t.index <;> cases t.mode <;> simp

/-- Declarations have no fault when their full names differ and no check of one of them answers. -/
theorem fault?_eq_none_iff {ds : Declarations} : ds.fault? = none ↔
    (ds.map (·.fullName)).Nodup ∧ (∀ d ∈ ds, ds.lineFault? d = none) ∧
      ∀ d ∈ ds, ds.bodyFault? d = none := by
  have hnames : firstRepeated? [] (ds.map (·.fullName)) = none ↔ (ds.map (·.fullName)).Nodup := by
    simp [firstRepeated?_eq_none_iff]
  rw [← hnames, ← List.findSome?_eq_none_iff, ← List.findSome?_eq_none_iff]
  unfold fault?
  cases firstRepeated? [] (ds.map (·.fullName)) with
  | some name => simp
  | none => cases ds.findSome? ds.lineFault? <;> simp

/-- The beans of a list of declarations. -/
theorem mem_filterMap_bean?_iff {ds : Declarations} {b : BeanDef} :
    b ∈ ds.filterMap TypeDef.bean? ↔ .bean b ∈ ds := by
  rw [List.mem_filterMap]
  constructor
  · rintro ⟨d, hd, hb⟩
    cases d <;> cases hb
    exact hd
  · exact fun h => ⟨.bean b, h, rfl⟩

/-- Where full names differ, a look-up finds each declaration, and nothing else. -/
theorem named?_eq_some_iff_of_nodup {ds : Declarations} (hnames : (ds.map (·.fullName)).Nodup)
    {name : String} {d : TypeDef} : ds.named? name = some d ↔ d ∈ ds ∧ d.fullName = name := by
  constructor
  · intro h
    exact ⟨List.mem_of_find?_eq_some h, by simpa using List.find?_some h⟩
  · rintro ⟨hd, rfl⟩
    cases h : ds.named? d.fullName with
    | none => simpa using List.find?_eq_none.1 h d hd
    | some e =>
      have he : e.fullName = d.fullName := by simpa using List.find?_some h
      rw [List.inj_on_of_nodup_map hnames (List.mem_of_find?_eq_some h) hd he]

theorem bean?_eq_some_iff_of_nodup {ds : Declarations} (hnames : (ds.map (·.fullName)).Nodup)
    {name : String} {b : BeanDef} : ds.bean? name = some b ↔ .bean b ∈ ds ∧ b.fullName = name := by
  rw [bean?, Option.bind_eq_some_iff]
  constructor
  · rintro ⟨d, hd, hb⟩
    cases d <;> cases hb
    exact (named?_eq_some_iff_of_nodup hnames).1 hd
  · exact fun h => ⟨.bean b, (named?_eq_some_iff_of_nodup hnames).2 h, rfl⟩

end Declarations

namespace TypeGraph
variable (g : TypeGraph)

theorem checks : (g.types.map (·.fullName)).Nodup ∧ (∀ d ∈ g.types, g.types.lineFault? d = none) ∧
    ∀ d ∈ g.types, g.types.bodyFault? d = none := Declarations.fault?_eq_none_iff.1 g.consistent

/-- A full name stands for one declaration. -/
theorem eq_of_fullName_eq {d e : TypeDef} (hd : d ∈ g.types) (he : e ∈ g.types)
    (h : d.fullName = e.fullName) : d = e :=
  List.inj_on_of_nodup_map g.checks.1 hd he h

theorem named?_eq_some_iff {name : String} {d : TypeDef} :
    g.types.named? name = some d ↔ d ∈ g.types ∧ d.fullName = name :=
  Declarations.named?_eq_some_iff_of_nodup g.checks.1

theorem bean?_eq_some_iff {name : String} {b : BeanDef} :
    g.types.bean? name = some b ↔ .bean b ∈ g.types ∧ b.fullName = name :=
  Declarations.bean?_eq_some_iff_of_nodup g.checks.1

/-- The row bean of a table is declared. -/
theorem exists_row {t : TableDef} (ht : .table t ∈ g.types) :
    ∃ row, g.types.bean? t.valueType = some row := by
  obtain ⟨row, hrow, _⟩ := Declarations.tableFault?_eq_none_iff.1 (g.checks.2.2 _ ht)
  exact ⟨row, hrow⟩

/-- The key of a table is the field that its index names, own or inherited, of its row bean. -/
theorem keyField?_eq_some {t : TableDef} {f : BeanDef × FieldDef}
    (h : g.types.keyField? t = some f) : ∃ row, g.types.bean? t.valueType = some row ∧
      f ∈ g.types.hierarchyFields row ∧ t.index = some f.2.name := by
  obtain ⟨index, hindex, h⟩ := Option.bind_eq_some_iff.1 h
  obtain ⟨row, hrow, h⟩ := Option.bind_eq_some_iff.1 h
  have hname : f.2.name = index := by simpa using List.find?_some h
  exact ⟨row, hrow, List.mem_of_find?_eq_some h, hname ▸ hindex⟩

/-- A map table has a key. -/
theorem exists_keyField {t : TableDef} (ht : .table t ∈ g.types) (hmode : t.mode = .map) :
    ∃ f, g.types.keyField? t = some f := by
  obtain ⟨row, hrow, hindexed, hmap⟩ :=
    Declarations.tableFault?_eq_none_iff.1 (g.checks.2.2 _ ht)
  obtain ⟨index, hindex⟩ := Option.isSome_iff_exists.1 (hmap hmode)
  obtain ⟨f, hf, hname⟩ := hindexed index hindex
  have hfound : ((g.types.hierarchyFields row).find? (·.2.name = index)).isSome := by
    rw [List.find?_isSome]
    exact ⟨f, hf, by simpa using hname⟩
  obtain ⟨key, hkey⟩ := Option.isSome_iff_exists.1 hfound
  exact ⟨key, Option.bind_eq_some_iff.2 ⟨index, hindex, Option.bind_eq_some_iff.2 ⟨row, hrow, hkey⟩⟩⟩

theorem fields_checked {b : BeanDef} (hb : .bean b ∈ g.types) :
    ((g.types.hierarchyFields b).map (·.2.name)).Nodup ∧
      ∀ f ∈ g.types.hierarchyFields b, ∀ name ∈ f.2.type.names, g.types.isValueType f.1 name := by
  obtain ⟨hnodup, _, htypes⟩ := Declarations.fieldFault?_eq_none_iff.1 (g.checks.2.2 _ hb)
  exact ⟨hnodup, fun f hf => (htypes f hf).1⟩

end TypeGraph

end ConfigTables
