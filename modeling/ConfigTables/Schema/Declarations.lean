import ConfigTables.Schema.Definition

/-!
    Looking around in a list of declarations: names, the tree of beans and their parents, and what a
    declaration mentions.

    Walks along parents and children take as many steps as there are declarations. In a list whose
    parents form no cycle no chain is longer, so the bound never cuts one short. -/

namespace ConfigTables

/-- Declarations in the order of the schema. -/
abbrev Declarations := List TypeDef

namespace Declarations

/-- The declaration of a full name. -/
def named? (ds : Declarations) (fullName : String) : Option TypeDef :=
  ds.find? (·.fullName = fullName)

/-- The bean of a full name. -/
def bean? (ds : Declarations) (fullName : String) : Option BeanDef :=
  (ds.named? fullName).bind TypeDef.bean?

/-- The enum of a full name. -/
def enum? (ds : Declarations) (fullName : String) : Option EnumDef :=
  (ds.named? fullName).bind TypeDef.enum?

/-- The table of a full name. -/
def table? (ds : Declarations) (fullName : String) : Option TableDef :=
  (ds.named? fullName).bind TypeDef.table?

/-- The tables, in order. -/
def tables (ds : Declarations) : List TableDef := ds.filterMap TypeDef.table?

/-- What a name means inside a namespace: the declaration of the name qualified by the namespace,
else that of the name as it stands. -/
def resolve? (ds : Declarations) (space name : String) : Option TypeDef :=
  if space = "" then ds.named? name
  else match ds.named? (qualify space name) with
    | some d => some d
    | none => ds.named? name

/-- What a name in a field of a bean means. -/
def fieldRef? (ds : Declarations) (owner : BeanDef) (name : String) : Option TypeDef :=
  ds.resolve? owner.space name

/-- The full names of the beans with a given parent, in order. -/
def children (ds : Declarations) (parent : String) : List String :=
  (ds.filterMap TypeDef.bean?).filterMap fun b =>
    if b.parent = some parent then some b.fullName else none

/-- The parent of a bean, when it is a declared bean. -/
def parent? (ds : Declarations) (b : BeanDef) : Option BeanDef := b.parent.bind ds.bean?

/-- The parent of a bean, the parent's parent and so on, at most so many. -/
def ancestorsWithin (ds : Declarations) : Nat → BeanDef → List BeanDef
  | 0, _ => []
  | steps + 1, b =>
    match ds.parent? b with
    | none => []
    | some p => p :: ds.ancestorsWithin steps p

/-- The parent of a bean, the parent's parent and so on. -/
def ancestors (ds : Declarations) (b : BeanDef) : List BeanDef := ds.ancestorsWithin ds.length b

/-- The beans below a name in the tree, so many levels deep, each before those below it. -/
def descendantsWithin (ds : Declarations) : Nat → String → List BeanDef
  | 0, _ => []
  | levels + 1, name =>
    (ds.children name).flatMap fun child =>
      match ds.bean? child with
      | none => []
      | some b => b :: ds.descendantsWithin levels child

/-- The beans below a name in the tree, each before those below it. -/
def descendants (ds : Declarations) (name : String) : List BeanDef :=
  ds.descendantsWithin ds.length name

/-- The fields of a bean with those it inherits, each with the bean that declares it; the fields of a
parent come first. -/
def hierarchyFields (ds : Declarations) (b : BeanDef) : List (BeanDef × FieldDef) :=
  (b :: ds.ancestors b).reverse.flatMap fun owner => owner.fields.map (owner, ·)

/-- The field that keys the rows of a table, with the bean that declares it. -/
def keyField? (ds : Declarations) (t : TableDef) : Option (BeanDef × FieldDef) := do
  let index ← t.index
  let b ← ds.bean? t.valueType
  (ds.hierarchyFields b).find? (·.2.name = index)

/-- The declarations that a bean's own fields mention, in order. -/
def fieldRefs (ds : Declarations) (b : BeanDef) : List TypeDef :=
  b.fields.flatMap fun field => field.type.names.filterMap (ds.fieldRef? b)

/-- The declarations that a declaration mentions directly: a table its row bean, a bean its parent,
its children and the types of its own fields, an enum nothing. -/
def refs (ds : Declarations) : TypeDef → List TypeDef
  | .enum _ => []
  | .table t => (ds.named? t.valueType).toList
  | .bean b =>
    (b.parent.bind ds.named?).toList ++ (ds.children b.fullName).filterMap ds.named? ++
      ds.fieldRefs b

end Declarations

end ConfigTables
