import ConfigTables.Proofs.Schema.Consistent

/-!
    Keys of maps. The keys of a map are to be primitive values or items of an enum, but the check of a
    field looks at one place of its type only: past one nullable, and when a map stands there whose key
    is a name, the name has to mean an enum. `mapKey_scalar_iff` says what is left open for a map that
    stands anywhere in the type of a field: its key is a container or nullable, or the map stands
    further inside and its key is a bean. All other keys are as they are to be, because every name in a
    type means an enum or a bean. -/

namespace ConfigTables

/-- `t` stands in a type, at some depth; every type stands in itself. -/
inductive TypeExpr.StandsIn (t : TypeExpr) : TypeExpr → Prop
  | self : StandsIn t t
  | element {kind : Sequence} {element : TypeExpr} : StandsIn t element →
      StandsIn t (.sequence kind element)
  | key {key value : TypeExpr} : StandsIn t key → StandsIn t (.map key value)
  | value {key value : TypeExpr} : StandsIn t value → StandsIn t (.map key value)
  | nullable {inner : TypeExpr} : StandsIn t inner → StandsIn t (.nullable inner)

/-- Whether a type is made of no other types. -/
def TypeExpr.isAtomic : TypeExpr → Bool
  | primitive _ | named _ => true
  | sequence .. | map .. | nullable _ => false

namespace Declarations

/-- The keys that maps are to have in the fields of a bean: primitive values and items of enums. -/
inductive ScalarKey (ds : Declarations) (owner : BeanDef) : TypeExpr → Prop
  | primitive (p : Primitive) : ScalarKey ds owner (.primitive p)
  | enum {name : String} {e : EnumDef} : ds.fieldRef? owner name = some (.enum e) →
      ScalarKey ds owner (.named name)

/-- The name of a bean, in a field of another one. -/
def NamesBean (ds : Declarations) (owner : BeanDef) (type : TypeExpr) : Prop :=
  ∃ name d, type = .named name ∧ ds.fieldRef? owner name = some (.bean d)

end Declarations

namespace TypeExpr.StandsIn
variable {s t type : TypeExpr}

theorem trans (hst : s.StandsIn t) (h : t.StandsIn type) : s.StandsIn type := by
  induction h with
  | self => exact hst
  | element _ ih => exact .element ih
  | key _ ih => exact .key ih
  | value _ ih => exact .value ih
  | nullable _ ih => exact .nullable ih

/-- What a type mentions, every type mentions that it stands in. -/
theorem names_subset (h : t.StandsIn type) : t.names ⊆ type.names := by
  induction h with
  | self => exact List.Subset.refl _
  | element _ ih => exact ih
  | key _ ih => exact List.Subset.trans ih (List.subset_append_left _ _)
  | value _ ih => exact List.Subset.trans ih (List.subset_append_right _ _)
  | nullable _ ih => exact ih

end TypeExpr.StandsIn

namespace Declarations.ScalarKey
variable {ds : Declarations} {owner : BeanDef} {type : TypeExpr}

theorem isAtomic (h : ds.ScalarKey owner type) : type.isAtomic := by
  cases h <;> rfl

theorem not_namesBean (h : ds.ScalarKey owner type) : ¬ds.NamesBean owner type := by
  rintro ⟨name, d, rfl, hbean⟩
  cases h with
  | enum henum => cases henum.symm.trans hbean

end Declarations.ScalarKey

section
variable {g : TypeGraph} {b : BeanDef} {f : BeanDef × FieldDef} {key value : TypeExpr}

/-- Where a map is the whole type of a field, nullable or not, the key is no bean. -/
theorem TypeGraph.not_namesBean_of_nonNull (hb : .bean b ∈ g.types)
    (hf : f ∈ g.types.hierarchyFields b) (hmap : f.2.type.nonNull = .map key value) :
    ¬g.types.NamesBean f.1 key := by
  rintro ⟨name, d, rfl, hbean⟩
  obtain ⟨_, _, hfields⟩ := Declarations.fieldFault?_eq_none_iff.1 (g.checks.2.2 _ hb)
  have hchecked := Declarations.hasBadKey_eq_false_iff.1 (hfields f hf).2
  obtain ⟨e, henum⟩ := hchecked name value hmap
  cases henum.symm.trans hbean

/-- What stands in the type of a field and is made of no other types is a primitive or an enum, unless
it means a bean. -/
theorem TypeGraph.scalarKey_of_standsIn (hb : .bean b ∈ g.types)
    (hf : f ∈ g.types.hierarchyFields b) (hkey : key.StandsIn f.2.type) (hatomic : key.isAtomic)
    (hother : ¬g.types.NamesBean f.1 key) : g.types.ScalarKey f.1 key := by
  cases key with
  | primitive p => exact .primitive p
  | named name =>
    have hmentioned : name ∈ f.2.type.names := hkey.names_subset (List.mem_singleton_self name)
    have hvalue := (g.fields_checked hb).2 f hf name hmentioned
    obtain ⟨d, href, hkind⟩ := Declarations.isValueType_iff.1 hvalue
    cases d with
    | enum e => exact .enum href
    | bean d => exact absurd ⟨name, d, rfl, href⟩ hother
    | table t => exact absurd rfl hkind
  | sequence _ _ => cases hatomic
  | map _ _ => cases hatomic
  | nullable _ => cases hatomic

/-- A map that stands in the type of an own or inherited field of a bean has a primitive or an enum
for its key, exactly when the key is made of no other types and, unless the map is the whole type of
the field, is not the name of a bean. -/
theorem mapKey_scalar_iff (g : TypeGraph) (b : BeanDef) (hb : .bean b ∈ g.types)
    (f : BeanDef × FieldDef) (hf : f ∈ g.types.hierarchyFields b) (key value : TypeExpr)
    (hmap : (TypeExpr.map key value).StandsIn f.2.type) :
    g.types.ScalarKey f.1 key ↔
      key.isAtomic ∧ (f.2.type.nonNull = .map key value ∨ ¬g.types.NamesBean f.1 key) := by
  constructor
  · intro hscalar
    exact ⟨hscalar.isAtomic, .inr hscalar.not_namesBean⟩
  · rintro ⟨hatomic, hplace⟩
    have hother : ¬g.types.NamesBean f.1 key := by
      rcases hplace with hwhole | hother
      · exact TypeGraph.not_namesBean_of_nonNull hb hf hwhole
      · exact hother
    have hkey : key.StandsIn f.2.type := (TypeExpr.StandsIn.key .self).trans hmap
    exact TypeGraph.scalarKey_of_standsIn hb hf hkey hatomic hother

end

namespace Pantry

/-- Numbers of lids by their color. -/
def lids : TypeExpr := .map (.named "Color") (.primitive .int)

/-- A box of a namespace of its own, whose field means a color of that namespace. -/
def box : BeanDef :=
  ⟨"base", "Box", none, true, [], [⟨"lids", .sequence .list (.nullable lids), none⟩], none⟩

/-- A crate, which is a box. -/
def crate : BeanDef := ⟨"store", "Crate", some "base.Box", false, [], [], none⟩

/-- Crates with their colors. -/
def crates : TypeGraph where
  types := [.enum ⟨"base", "Color", false, [], [⟨"Red", 1, none, none⟩], none⟩, .bean box, .bean crate]
  consistent := by decide

/-- The lids of a crate are inherited, and their keys are colors of the namespace of the box. -/
theorem lids_scalar : .bean crate ∈ crates.types ∧
    ∃ f ∈ crates.types.hierarchyFields crate, lids.StandsIn f.2.type ∧
      crates.types.ScalarKey f.1 (.named "Color") := by
  have hcrate : .bean crate ∈ crates.types := by decide
  have hfield : (box, ⟨"lids", .sequence .list (.nullable lids), none⟩) ∈
      crates.types.hierarchyFields crate := by decide
  have hlids : lids.StandsIn (.sequence .list (.nullable lids)) := .element (.nullable .self)
  refine ⟨hcrate, _, hfield, hlids, ?_⟩
  refine (mapKey_scalar_iff crates crate hcrate _ hfield _ _ hlids).2 ⟨rfl, .inr ?_⟩
  rintro ⟨name, d, hname, hbean⟩
  cases hname
  cases hbean

/-- A jar. -/
def jar : BeanDef := ⟨"", "Jar", none, false, [], [⟨"size", .primitive .int, none⟩], none⟩

/-- A shelf with its stock of jars, sets of jars by lists of sizes, and jars by sizes that may be
missing. -/
def shelf : BeanDef :=
  ⟨"", "Shelf", none, false, [],
    [⟨"stock", .sequence .list (.map (.named "Jar") (.primitive .int)), none⟩,
      ⟨"sets", .map (.sequence .list (.primitive .int)) (.named "Jar"), none⟩,
      ⟨"spares", .map (.nullable (.primitive .int)) (.named "Jar"), none⟩], none⟩

/-- Shelves as they are accepted. -/
def shelves : TypeGraph where
  types := [.bean jar, .bean shelf]
  consistent := by decide

/-- Keys of maps that are accepted: a bean, in a map inside a list, a list and a nullable integer. -/
theorem shelf_keys_not_scalar : .bean shelf ∈ shelves.types ∧
    ∀ key ∈ [.named "Jar", .sequence .list (.primitive .int), .nullable (.primitive .int)],
      ∃ f ∈ shelves.types.hierarchyFields shelf, ∃ value,
        (TypeExpr.map key value).StandsIn f.2.type ∧ ¬shelves.types.ScalarKey f.1 key := by
  refine ⟨by decide, ?_⟩
  simp only [List.forall_mem_cons, List.not_mem_nil, false_implies, implies_true, and_true]
  refine ⟨⟨(shelf, shelf.fields[0]), by decide, _, .element .self, fun h => ?_⟩,
    ⟨(shelf, shelf.fields[1]), by decide, _, .self, fun h => ?_⟩,
    ⟨(shelf, shelf.fields[2]), by decide, _, .self, fun h => ?_⟩⟩
  · exact h.not_namesBean ⟨"Jar", jar, rfl, rfl⟩
  · cases h
  · cases h

end Pantry

end ConfigTables
