import ConfigTables.Proofs.Rows.Conformance
import Mathlib.Data.List.Zip
import Mathlib.Logic.Relation

/-!
    Positions in the data of a row. Below a bean stand the values of its fields, below a sequence
    its items and below a map its keys and values. The values alone do not say what they are values
    of; the schema does, which gives each of them a type in the scope of the bean that declares the
    field it belongs to. A position is a value with both. In data that conform to the schema every
    value has a position, and a value at any depth conforms at its own. -/

namespace ConfigTables

/-- The values that stand directly in a value. -/
inductive Value.Part : Value → Value → Prop
  | field {typeName : String} {tagged : Bool} {fields : List (String × Value)}
      {f : String × Value} : f ∈ fields → Part (.bean typeName tagged fields) f.2
  | item {items : List Value} {v : Value} : v ∈ items → Part (.seq items) v
  | key {entries : List (Value × Value)} {e : Value × Value} : e ∈ entries → Part (.map entries) e.1
  | value {entries : List (Value × Value)} {e : Value × Value} :
      e ∈ entries → Part (.map entries) e.2

/-- A value is the bean itself or stands in it, at some depth. -/
def BeanValue.Occurs (b : BeanValue) (v : Value) : Prop :=
  Relation.ReflTransGen Value.Part b.toValue v

/-- A value where the schema puts it: with its type, and the bean that declares the field it belongs
to. -/
structure Position where
  scope : BeanDef
  type : TypeExpr
  value : Value

/-- The enum that the type of a position names. -/
def Position.enum? (ds : Declarations) (p : Position) : Option EnumDef :=
  match p.type.core with
  | .named name => (ds.fieldRef? p.scope name).bind TypeDef.enum?
  | _ => none

theorem Position.enum?_eq_some_iff {ds : Declarations} {p : Position} {e : EnumDef} :
    p.enum? ds = some e ↔
      ∃ name, p.type.core = .named name ∧ ds.fieldRef? p.scope name = some (.enum e) := by
  unfold enum?
  cases p.type.core with
  | named name =>
    cases href : ds.fieldRef? p.scope name with
    | none => simp [href]
    | some definition => cases definition <;> simp [href, TypeDef.enum?]
  | primitive _ => simp
  | sequence _ _ => simp
  | map _ _ => simp
  | nullable _ => simp

/-- The positions directly below a position. -/
inductive Position.Part (ds : Declarations) : Position → Position → Prop
  | field {scope c : BeanDef} {type : TypeExpr} {typeName : String} {tagged : Bool}
      {fields : List (String × Value)} {f : (BeanDef × FieldDef) × String × Value} :
      ds.bean? typeName = some c → f ∈ (ds.hierarchyFields c).zip fields →
      Part ds ⟨scope, type, .bean typeName tagged fields⟩ ⟨f.1.1, f.1.2.type, f.2.2⟩
  | item {scope : BeanDef} {type element : TypeExpr} {kind : Sequence} {items : List Value}
      {v : Value} : type.core = .sequence kind element → v ∈ items →
      Part ds ⟨scope, type, .seq items⟩ ⟨scope, element, v⟩
  | key {scope : BeanDef} {type key value : TypeExpr} {entries : List (Value × Value)}
      {e : Value × Value} : type.core = .map key value → e ∈ entries →
      Part ds ⟨scope, type, .map entries⟩ ⟨scope, key, e.1⟩
  | value {scope : BeanDef} {type key value : TypeExpr} {entries : List (Value × Value)}
      {e : Value × Value} : type.core = .map key value → e ∈ entries →
      Part ds ⟨scope, type, .map entries⟩ ⟨scope, value, e.2⟩

namespace BeanValue

/-- The positions below a row, at every depth. -/
inductive HasPosition (ds : Declarations) (b : BeanValue) : Position → Prop
  | field {c : BeanDef} {f : (BeanDef × FieldDef) × String × Value} :
      ds.bean? b.typeName = some c → f ∈ (ds.hierarchyFields c).zip b.fields →
      HasPosition ds b ⟨f.1.1, f.1.2.type, f.2.2⟩
  | part {p q : Position} : HasPosition ds b p → Position.Part ds p q → HasPosition ds b q

end BeanValue

open Declarations (Conforms ConformsTo)

/-- A value other than a missing one conforms to the type without any nullable around it. -/
theorem Declarations.Conforms.core {ds : Declarations} {scope : BeanDef} {type : TypeExpr}
    {v : Value} (h : ds.Conforms scope type v) (hv : v ≠ .null) :
    ds.Conforms scope type.core v := by
  induction h with
  | primitive hholds => exact .primitive hholds
  | enum href hholds => exact .enum href hholds
  | bean href hinstance hfields _ => exact .bean href hinstance hfields
  | seq hitems _ => exact .seq hitems
  | map hkeys hvalues _ _ => exact .map hkeys hvalues
  | null => exact absurd rfl hv
  | present _ ih => exact ih hv

/-- What a value other than a missing one is, by the type without any nullable around it. -/
theorem Declarations.Conforms.shape {ds : Declarations} {scope : BeanDef} {type : TypeExpr}
    {v : Value} (h : ds.Conforms scope type v) (hv : v ≠ .null) :
    (∃ p, type.core = .primitive p ∧ p.Holds v) ∨
    (∃ name e, type.core = .named name ∧ ds.fieldRef? scope name = some (.enum e) ∧ e.Holds v) ∨
    (∃ name d b, type.core = .named name ∧ ds.fieldRef? scope name = some (.bean d) ∧
      ds.ConformsTo d b ∧ v = b.toValue) ∨
    (∃ kind element items, type.core = .sequence kind element ∧ v = .seq items) ∨
    ∃ key value entries, type.core = .map key value ∧ v = .map entries := by
  have hcore := h.core hv
  generalize htype : type.core = core at hcore
  cases hcore with
  | primitive hholds => exact .inl ⟨_, rfl, hholds⟩
  | enum href hholds => exact .inr (.inl ⟨_, _, rfl, href, hholds⟩)
  | bean href hinstance hfields =>
    exact .inr (.inr (.inl ⟨_, _, _, rfl, href, ⟨_, hinstance, hfields⟩, rfl⟩))
  | seq => exact .inr (.inr (.inr (.inl ⟨_, _, _, rfl, rfl⟩)))
  | map => exact .inr (.inr (.inr (.inr ⟨_, _, _, rfl, rfl⟩)))
  | null => exact absurd rfl hv
  | present => exact absurd htype (TypeExpr.core_ne_nullable _ _)

/-- A bean that stands at a position is an instance of a declared one. -/
theorem Declarations.Conforms.conformsTo {ds : Declarations} {scope : BeanDef} {type : TypeExpr}
    {typeName : String} {tagged : Bool} {fields : List (String × Value)}
    (h : ds.Conforms scope type (.bean typeName tagged fields)) :
    ∃ name d, type.core = .named name ∧ ds.fieldRef? scope name = some (.bean d) ∧
      ds.ConformsTo d ⟨typeName, tagged, fields⟩ := by
  rcases h.shape nofun with ⟨p, _, hp⟩ | ⟨_, _, _, _, he⟩ | ⟨name, d, b, htype, href, hb, hv⟩ |
    ⟨_, _, _, _, hv⟩ | ⟨_, _, _, _, hv⟩
  · cases hp
  · cases he
  · cases hv
    exact ⟨name, d, htype, href, hb⟩
  · cases hv
  · cases hv

/-- The type of a position that holds an enum value names the enum. -/
theorem Position.exists_enum {ds : Declarations} {p : Position} {item : String} {k : Int32}
    (h : ds.Conforms p.scope p.type p.value) (hvalue : p.value = .enum item k) :
    ∃ e, p.enum? ds = some e ∧ e.Holds (.enum item k) := by
  rw [hvalue] at h
  rcases h.shape nofun with ⟨p, _, hp⟩ | ⟨name, e, htype, href, he⟩ | ⟨_, _, _, _, _, _, hv⟩ |
    ⟨_, _, _, _, hv⟩ | ⟨_, _, _, _, hv⟩
  · cases hp
  · exact ⟨e, enum?_eq_some_iff.2 ⟨name, htype, href⟩, he⟩
  · cases hv
  · cases hv
  · cases hv

section
variable {g : TypeGraph}

/-- The type name of an instance of a declared bean finds its concrete type. -/
theorem bean?_typeName {d c : BeanDef} {b : BeanValue} (hd : .bean d ∈ g.types)
    (h : g.types.InstanceOf d c b) : g.types.bean? b.typeName = some c :=
  g.bean?_eq_some_iff.2 ⟨h.declared hd, h.typeName.symm⟩

/-- The fields of an instance conform, each to the type of its position. -/
theorem conforms_field {d c : BeanDef} {b : BeanValue} (hd : .bean d ∈ g.types)
    (h : g.types.ConformsTo d b) (hc : g.types.bean? b.typeName = some c)
    {f : (BeanDef × FieldDef) × String × Value}
    (hf : f ∈ (g.types.hierarchyFields c).zip b.fields) :
    g.types.Conforms f.1.1 f.1.2.type f.2.2 := by
  obtain ⟨c', hinstance, hfields⟩ := h
  cases (bean?_typeName hd hinstance).symm.trans hc
  exact hfields f hf

/-- What stands directly in a value that conforms, conforms at its own position. -/
theorem Position.conforms_part {p q : Position} (h : g.types.Conforms p.scope p.type p.value)
    (hpart : Position.Part g.types p q) : g.types.Conforms q.scope q.type q.value := by
  cases hpart with
  | field hc hf =>
    obtain ⟨_, d, _, href, hconforms⟩ := h.conformsTo
    exact conforms_field (Declarations.mem_of_fieldRef?_eq_some href) hconforms hc hf
  | item htype hv =>
    have hcore := h.core nofun
    simp only [htype] at hcore
    cases hcore with
    | seq hitems => exact hitems _ hv
  | key htype he =>
    have hcore := h.core nofun
    simp only [htype] at hcore
    cases hcore with
    | map hkeys _ => exact hkeys _ he
  | value htype he =>
    have hcore := h.core nofun
    simp only [htype] at hcore
    cases hcore with
    | map _ hvalues => exact hvalues _ he

/-- The values below a row that conforms, conform at every depth. -/
theorem conforms_of_hasPosition {d : BeanDef} {b : BeanValue} {p : Position}
    (hd : .bean d ∈ g.types) (h : g.types.ConformsTo d b) (hp : b.HasPosition g.types p) :
    g.types.Conforms p.scope p.type p.value := by
  induction hp with
  | field hc hf => exact conforms_field hd h hc hf
  | part _ hpart ih => exact Position.conforms_part ih hpart

theorem exists_mem_zip_fields {d c : BeanDef} {b : BeanValue} (h : g.types.InstanceOf d c b)
    {f : String × Value} (hf : f ∈ b.fields) :
    ∃ owner, (owner, f) ∈ (g.types.hierarchyFields c).zip b.fields := by
  obtain ⟨owner, hzip, _⟩ := exists_zip_of_mem h.names.symm hf
  refine ⟨owner, ?_⟩
  rw [← List.zip_swap]
  exact List.mem_map.2 ⟨_, hzip, rfl⟩

/-- What stands directly in a value that conforms has a position. -/
theorem Position.exists_part {p : Position} {w : Value}
    (h : g.types.Conforms p.scope p.type p.value) (hpart : Value.Part p.value w) :
    ∃ q, Position.Part g.types p q ∧ q.value = w := by
  obtain ⟨scope, type, v⟩ := p
  rcases h.shape (by rintro rfl; cases hpart) with ⟨_, _, hp⟩ | ⟨_, _, _, _, he⟩ |
    ⟨_, d, b, _, href, ⟨c, hinstance, _⟩, rfl⟩ | ⟨_, _, items, htype, rfl⟩ |
    ⟨_, _, entries, htype, rfl⟩
  · cases hp <;> cases hpart
  · cases he <;> cases hpart
  · cases hpart with
    | field hf =>
      obtain ⟨owner, hzip⟩ := exists_mem_zip_fields hinstance hf
      have hc := bean?_typeName (Declarations.mem_of_fieldRef?_eq_some href) hinstance
      exact ⟨_, .field hc hzip, rfl⟩
  · cases hpart with
    | item hv => exact ⟨_, .item htype hv, rfl⟩
  · cases hpart with
    | key he => exact ⟨_, .key htype he, rfl⟩
    | value he => exact ⟨_, .value htype he, rfl⟩

/-- Every value that occurs in a row that conforms is the row itself or has a position. -/
theorem exists_position_of_occurs {d : BeanDef} {b : BeanValue} {v : Value} (hd : .bean d ∈ g.types)
    (h : g.types.ConformsTo d b) (hv : b.Occurs v) :
    v = b.toValue ∨ ∃ p, b.HasPosition g.types p ∧ p.value = v := by
  induction hv with
  | refl => exact .inl rfl
  | tail _ hpart ih =>
    right
    rcases ih with rfl | ⟨p, hp, rfl⟩
    · obtain ⟨c, hinstance, _⟩ := h
      cases hpart with
      | field hf =>
        obtain ⟨owner, hzip⟩ := exists_mem_zip_fields hinstance hf
        exact ⟨_, .field (bean?_typeName hd hinstance) hzip, rfl⟩
    · obtain ⟨q, hq, hvalue⟩ := Position.exists_part (conforms_of_hasPosition hd h hp) hpart
      exact ⟨q, .part hp hq, hvalue⟩

end

end ConfigTables
