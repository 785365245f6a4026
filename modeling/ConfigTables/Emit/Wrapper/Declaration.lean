import ConfigTables.Emit.Wrapper.TypeForm
import ConfigTables.Text.Blank

/-!
    The declarations of the generated Rust code, before they are written as text: what is declared,
    under which identifiers, and of which types. -/

namespace ConfigTables.Wrapper

/-- A variant or a constant of an enum. -/
structure ItemDecl where
  variant : String
  constant : String
  value : Int32
  comment : Option String
  deriving DecidableEq

/-- An enum. Flags are declared as constants of a number type, other items as variants. -/
structure EnumDecl where
  ident : String
  fullName : String
  flags : Bool
  constantStem : String
  comment : Option String
  items : List ItemDecl
  deriving DecidableEq

/-- A field of a struct; the accessor is its method on the enum over the instances. -/
structure FieldDecl where
  ident : String
  accessor : String
  member : String
  form : TypeForm
  comment : Option String
  deriving DecidableEq

/-- An instance of a bean that can be one of several: its struct, and the tag that selects it. -/
structure VariantDecl where
  ident : String
  tag : String
  deriving DecidableEq

/-- A bean: its struct, unless it is abstract, and the enum over its instances, if it has children. -/
structure BeanDecl where
  ident : String
  kindIdent : String
  fullName : String
  isAbstract : Bool
  hasKinds : Bool
  comment : Option String
  fields : List FieldDecl
  variants : List VariantDecl
  deriving DecidableEq

/-- The key of a table, and the expression that borrows it from a row. -/
structure KeyDecl where
  form : TypeForm
  hashable : Bool
  access : String
  deriving DecidableEq

/-- A table: its type, the module and the file that hold it, the field of the manager, the file with
its rows, and the type of these. -/
structure TableDecl where
  ident : String
  fullName : String
  module : String
  member : String
  file : String
  dataFile : String
  mode : TableMode
  rowIdent : String
  key : Option KeyDecl
  comment : Option String
  deriving DecidableEq

/-- Whether the rows of a table are found by way of a hash map. -/
def TableDecl.isIndexed (t : TableDecl) : Bool :=
  t.mode = .map && (t.key.map KeyDecl.hashable).getD false

/-- Whether a field has another name in data than in code. -/
def FieldDecl.isRenamed (f : FieldDecl) : Bool := f.ident ≠ f.member

/-- A comment on one line, if there is anything in it. -/
def commentLine (comment : Option String) : Option String :=
  (comment.map Text.oneLine).filter (· ≠ "")

/-- The first item of each value. -/
def distinctValues (seen : List Int32) : List EnumItem → List EnumItem
  | [] => []
  | i :: rest =>
    if i.value ∈ seen then distinctValues seen rest
    else i :: distinctValues (i.value :: seen) rest

namespace Names

/-- The declaration of an enum item. -/
def itemDecl (n : Names) (i : EnumItem) : ItemDecl :=
  ⟨n.itemIdent i.name, Convention.screamingSnake.apply i.name, i.value, commentLine i.comment⟩

/-- The declaration of an enum. Unless it is one of flags, each value has one variant. -/
def enumDecl (n : Names) (e : EnumDef) : EnumDecl :=
  let ident := n.typeIdent e.fullName
  { ident
    fullName := e.fullName
    flags := e.flags
    constantStem := Convention.screamingSnake.apply ident
    comment := commentLine e.comment
    items := (if e.flags then e.items else distinctValues [] e.items).map n.itemDecl }

/-- The declaration of a field in the scope of the bean that declares it. -/
def fieldDecl (n : Names) (field : BeanDef × FieldDef) : Except SchemaError FieldDecl := do
  let form ← TypeForm.ofType n.types field.1 true field.2.type
  return ⟨n.fieldIdent field.2.name, n.methodIdent field.2.name, field.2.name, form,
    commentLine field.2.comment⟩

/-- The declarations of the fields of a bean, those it inherits first. -/
def fieldDecls (n : Names) (b : BeanDef) : Except SchemaError (List FieldDecl) :=
  (n.types.hierarchyFields b).mapM n.fieldDecl

/-- The beans that a value of a bean can be an instance of. -/
def instances (n : Names) (b : BeanDef) : List BeanDef :=
  (b :: n.types.descendants b.fullName).filter (!·.isAbstract)

/-- The declaration of a bean. -/
def beanDecl (n : Names) (b : BeanDef) : Except SchemaError BeanDecl := do
  let fields ← n.fieldDecls b
  return {
    ident := n.structIdent b
    kindIdent := n.beanIdent b
    fullName := b.fullName
    isAbstract := b.isAbstract
    hasKinds := n.hasKinds b
    comment := commentLine b.comment
    fields
    variants := if n.hasKinds b then
        (n.instances b).map fun c => ⟨n.structIdent c, c.fullName⟩
      else [] }

/-- The declaration of the key of a table with rows of a bean. -/
def keyDecl (n : Names) (row : BeanDef) (key : BeanDef × FieldDef) : Except SchemaError KeyDecl := do
  let form ← TypeForm.ofType n.types key.1 true key.2.type
  return {
    form
    hashable := TypeForm.isHashable n.types key.1 key.2.type
    access := if n.hasKinds row then "row." ++ n.methodIdent key.2.name ++ "()"
      else "&row." ++ n.fieldIdent key.2.name }

/-- The declaration of a table; `file` and `dataFile` are the paths of its code and its rows. -/
def tableDecl (n : Names) (file dataFile : String) (t : TableDef) :
    Except SchemaError TableDecl :=
  match n.types.bean? t.valueType with
  | none => .error (.unknownType t.valueType)
  | some row => do
    let key ← (n.types.keyField? t).mapM (n.keyDecl row)
    return {
      ident := n.typeIdent t.fullName
      fullName := t.fullName
      module := moduleIdent t.fullName
      member := n.memberIdent t.fullName
      file
      dataFile
      mode := t.mode
      rowIdent := n.beanIdent row
      key
      comment := commentLine t.comment }

end Names

end ConfigTables.Wrapper
