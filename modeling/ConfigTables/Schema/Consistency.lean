import ConfigTables.Schema.Declarations
import ConfigTables.Schema.Error

/-!
    When declarations make sense together. `Declarations.fault?` is the first thing wrong with a list
    of them: names first, then the parents of all beans, then each declaration in order. Each check
    answers with its fault or with nothing, so a list is consistent when every check of it answers
    nothing. -/

namespace ConfigTables

/-- The first name of a list that stands in it, or in `seen`, before. -/
def firstRepeated? (seen : List String) : List String → Option String
  | [] => none
  | name :: rest => if name ∈ seen then some name else firstRepeated? (name :: seen) rest

namespace Declarations

/-- What is wrong with the parents of a bean, going up from `current` past the beans in `seen`. -/
def parentFault? (ds : Declarations) (bean : BeanDef) :
    Nat → List String → BeanDef → Option SchemaError
  | 0, _, _ => none
  | steps + 1, seen, current =>
    match current.parent with
    | none => none
    | some name =>
      match ds.bean? name with
      | none => some (.parentNotBean bean.fullName name)
      | some parent =>
        if parent.fullName ∈ seen then some (.cyclicParents bean.fullName)
        else parentFault? ds bean steps (parent.fullName :: seen) parent

/-- What is wrong with the parents of a declaration. -/
def lineFault? (ds : Declarations) : TypeDef → Option SchemaError
  | .bean b => ds.parentFault? b ds.length [b.fullName] b
  | _ => none

/-- What is wrong with the items of an enum. -/
def itemFault? (e : EnumDef) : Option SchemaError :=
  (firstRepeated? [] (e.items.map (·.name))).map fun name => .duplicateItem e.fullName name

/-- Whether a name in a field of `owner` is the name of an enum or a bean. -/
def isValueType (ds : Declarations) (owner : BeanDef) (name : String) : Bool :=
  match ds.fieldRef? owner name with
  | some (.enum _) | some (.bean _) => true
  | _ => false

/-- Whether a name in a field of `owner` is the name of an enum. -/
def isEnumType (ds : Declarations) (owner : BeanDef) (name : String) : Bool :=
  match ds.fieldRef? owner name with
  | some (.enum _) => true
  | _ => false

/-- Whether a type is a map, perhaps nullable, whose key is a declared type other than an enum. -/
def hasBadKey (ds : Declarations) (owner : BeanDef) (type : TypeExpr) : Bool :=
  match type.nonNull with
  | .map (.named name) _ => !ds.isEnumType owner name
  | _ => false

/-- What is wrong with the fields of a bean, after fields with the names in `seen`. -/
def fieldFault? (ds : Declarations) (bean : BeanDef) (seen : List String) :
    List (BeanDef × FieldDef) → Option SchemaError
  | [] => none
  | (owner, field) :: rest =>
    if field.name ∈ seen then some (.duplicateField bean.fullName field.name)
    else match field.type.names.find? (!ds.isValueType owner ·) with
      | some name => some (.unknownFieldType name bean.fullName field.name)
      | none =>
        if ds.hasBadKey owner field.type then some (.badMapKey bean.fullName field.name)
        else fieldFault? ds bean (field.name :: seen) rest

/-- What is wrong with a table. -/
def tableFault? (ds : Declarations) (t : TableDef) : Option SchemaError :=
  match ds.bean? t.valueType with
  | none => some (.valueNotBean t.fullName t.valueType)
  | some value =>
    match t.index, t.mode with
    | none, .map => some (.indexRequired t.fullName)
    | none, _ => none
    | some index, _ =>
      if (ds.hierarchyFields value).any (·.2.name = index) then none
      else some (.unknownIndex value.fullName index)

/-- What is wrong inside a declaration. -/
def bodyFault? (ds : Declarations) : TypeDef → Option SchemaError
  | .enum e => itemFault? e
  | .bean b => ds.fieldFault? b [] (ds.hierarchyFields b)
  | .table t => ds.tableFault? t

/-- The first thing wrong with a list of declarations. -/
def fault? (ds : Declarations) : Option SchemaError :=
  match firstRepeated? [] (ds.map (·.fullName)) with
  | some name => some (.duplicateType name)
  | none =>
    match ds.findSome? ds.lineFault? with
    | some e => some e
    | none => ds.findSome? ds.bodyFault?

end Declarations

end ConfigTables
