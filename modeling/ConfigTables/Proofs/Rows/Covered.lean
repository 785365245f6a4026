import ConfigTables.Proofs.Rows.Position
import ConfigTables.Proofs.Schema.Closed

/-!
    Exported data only mention exported types. Where a type names a bean, the value that stands
    there may be of any bean below it, with fields that the beans above declare and whose types are
    names in the scope of these. What an export needs reaches just as far: when it needs what the
    type of a position mentions, it needs what the positions below mention, and so on at every
    depth. -/

namespace ConfigTables

/-- A closure holds the types of the data of a row: the type of every bean that occurs there as a
bean, and the enum of every position with an enum value as an enum. Every enum value that occurs has
a position. -/
structure ExportClosure.Covers (closure : ExportClosure) (ds : Declarations) (b : BeanValue) :
    Prop where
  beans : ∀ typeName tagged fields, b.Occurs (.bean typeName tagged fields) →
    ∃ c, closure.get? typeName = some (.bean c)
  enums : ∀ p item k, b.HasPosition ds p → p.value = .enum item k →
    ∃ e, p.enum? ds = some e ∧ closure.get? e.fullName = some (.enum e)
  positions : ∀ item k, b.Occurs (.enum item k) → ∃ p, b.HasPosition ds p ∧ p.value = .enum item k

/-- An export needs what the type of a position mentions. -/
def Position.Supported (ds : Declarations) (tables : List TableDef) (enabled : List String)
    (p : Position) : Prop :=
  ∀ name ∈ p.type.names, ∀ r, ds.fieldRef? p.scope name = some r → ds.Needed tables enabled r

section
variable {g : TypeGraph} {tables : List TableDef} {enabled : List String} {d : BeanDef}
  {b : BeanValue}

/-- An export that needs a bean needs the concrete types of its instances. -/
theorem Declarations.ConformsTo.needed (h : g.types.ConformsTo d b)
    (hd : g.types.Needed tables enabled (.bean d)) :
    ∃ c, g.types.bean? b.typeName = some c ∧ g.types.Needed tables enabled (.bean c) := by
  obtain ⟨c, hinstance, _⟩ := h
  refine ⟨c, bean?_typeName hd.mem hinstance, ?_⟩
  rcases hinstance.related with rfl | hbelow
  · exact hd
  · exact hd.down hbelow

/-- What a position mentions being needed, so is the type of a bean that stands there. -/
theorem Position.Supported.needed {scope : BeanDef} {type : TypeExpr} {typeName : String}
    {tagged : Bool} {fields : List (String × Value)}
    (hp : Position.Supported g.types tables enabled ⟨scope, type, .bean typeName tagged fields⟩)
    (h : g.types.Conforms scope type (.bean typeName tagged fields)) :
    ∃ c, g.types.bean? typeName = some c ∧ g.types.Needed tables enabled (.bean c) := by
  obtain ⟨name, d, htype, href, hconforms⟩ := h.conformsTo
  exact hconforms.needed (hp name (TypeExpr.mem_names htype) _ href)

/-- What a position mentions being needed, so is what the positions directly below it mention. -/
theorem Position.Supported.part {p q : Position} (hp : p.Supported g.types tables enabled)
    (h : g.types.Conforms p.scope p.type p.value) (hpart : Position.Part g.types p q) :
    q.Supported g.types tables enabled := by
  intro name hname r href
  cases hpart with
  | field hc hf =>
    -- the fields are those of the concrete type, which the type of the position does not name
    obtain ⟨c, hc', hneeded⟩ := hp.needed h
    cases hc'.symm.trans hc
    exact hneeded.fieldRef (List.of_mem_zip hf).1 hname href
  | item htype _ =>
    refine hp name ?_ r href
    rw [← TypeExpr.names_core, htype]
    exact hname
  | key htype _ =>
    refine hp name ?_ r href
    rw [← TypeExpr.names_core, htype]
    exact List.mem_append_left _ hname
  | value htype _ =>
    refine hp name ?_ r href
    rw [← TypeExpr.names_core, htype]
    exact List.mem_append_right _ hname

/-- An export that needs the bean of a row needs what its positions mention, at every depth. -/
theorem supported_of_hasPosition {p : Position} (h : g.types.ConformsTo d b)
    (hd : g.types.Needed tables enabled (.bean d)) (hp : b.HasPosition g.types p) :
    p.Supported g.types tables enabled := by
  induction hp with
  | field hc hf =>
    intro name hname r href
    obtain ⟨c, hc', hneeded⟩ := h.needed hd
    cases hc'.symm.trans hc
    exact hneeded.fieldRef (List.of_mem_zip hf).1 hname href
  | part hp hpart ih => exact ih.part (conforms_of_hasPosition hd.mem h hp) hpart

/-- A closure that holds what is needed covers the rows of a needed bean. -/
theorem covers_of_conformsTo {closure : ExportClosure} (h : g.types.ConformsTo d b)
    (hd : g.types.Needed tables enabled (.bean d))
    (hheld : ∀ r, g.types.Needed tables enabled r → closure.get? r.fullName = some r) :
    closure.Covers g.types b where
  beans := by
    intro typeName tagged fields hoccurs
    have hneeded : ∃ c, g.types.bean? typeName = some c ∧
        g.types.Needed tables enabled (.bean c) := by
      rcases exists_position_of_occurs hd.mem h hoccurs with hrow | ⟨⟨scope, type, v⟩, hp, rfl⟩
      · cases hrow
        exact h.needed hd
      · exact (supported_of_hasPosition h hd hp).needed (conforms_of_hasPosition hd.mem h hp)
    obtain ⟨c, hc, hneeded⟩ := hneeded
    exact ⟨c, (g.bean?_eq_some_iff.1 hc).2 ▸ hheld _ hneeded⟩
  enums := by
    intro p item k hp hvalue
    obtain ⟨e, he, _⟩ := Position.exists_enum (conforms_of_hasPosition hd.mem h hp) hvalue
    obtain ⟨name, htype, href⟩ := Position.enum?_eq_some_iff.1 he
    have hsupported := supported_of_hasPosition h hd hp
    exact ⟨e, he, hheld _ (hsupported name (TypeExpr.mem_names htype) _ href)⟩
  positions := by
    intro item k hoccurs
    exact (exists_position_of_occurs hd.mem h hoccurs).resolve_left nofun

/-- The rows of exported tables only mention exported types: the closure of the tables to be
exported comes about, and it covers the data of every row that is read for one of them. -/
theorem exported_rows_covered (g : TypeGraph) (enabled : List String) :
    ∃ closure, g.types.exportClosure (g.types.exportTables enabled) enabled = .ok closure ∧
      ∀ t ∈ g.types.exportTables enabled, ∀ location row r,
        g.readRecord t location row = .ok r → closure.Covers g.types r.data := by
  obtain ⟨closure, hclosure, hheld⟩ := Declarations.exists_exportClosure enabled
    fun t (ht : t ∈ g.types.exportTables enabled) => Declarations.declared_of_mem_exportTables ht
  refine ⟨closure, hclosure, fun t ht location row r hread => ?_⟩
  obtain ⟨d, hd⟩ := g.exists_row (Declarations.declared_of_mem_exportTables ht)
  exact covers_of_conformsTo (conformsTo_readRecord hd hread) (.row ht hd) hheld

end

namespace Shapes

/-- The group in the group and the color in it are of exported types. -/
theorem record_covered : graph.readRecord table "shapes" row = .ok record ∧
    ∃ closure, graph.types.exportClosure (graph.types.exportTables []) [] = .ok closure ∧
      closure.Covers graph.types record.data := by
  obtain ⟨closure, hclosure, hcovers⟩ := exported_rows_covered graph []
  exact ⟨rfl, closure, hclosure, hcovers table (by decide) "shapes" row record rfl⟩

end Shapes

end ConfigTables
