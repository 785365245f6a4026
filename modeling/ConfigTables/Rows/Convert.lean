import ConfigTables.Rows.Scalar
import ConfigTables.Schema.Graph

/-!
    Reading rows. A document becomes a `ValueReader`: a function that, told the type of the place the
    document stands in, gives the value. The reader of an array is put together from the readers of
    its items and that of an object from those of its members, so reading follows the document and
    ends with it, whatever the schema. -/

namespace ConfigTables

/-- The member of a row that holds its tags. -/
def tagsKey : String := "__tags"

/-- Reads the document of a place: the bean whose field it belongs to, the type, and the location. -/
abbrev ValueReader := BeanDef → TypeExpr → String → Except DataError Value

/-- The location of a field or of the value under a key. -/
def locationOf (location name : String) : String := location ++ "." ++ name

/-- The location of an item. -/
def locationAt (location : String) (index : Nat) : String :=
  location ++ "[" ++ toString index ++ "]"

/-- A fault at a location. -/
def RowFault.at {α : Type} (fault : RowFault) (location : String) : Except DataError α :=
  .error (.invalidRecord location fault)

/-- A reading at a location. -/
def Reading.at {α : Type} (location : String) (reading : Reading α) : Except DataError α :=
  reading.mapError (.invalidRecord location)

/-- An absent value is legal only where the type is nullable. -/
def readNull : ValueReader := fun _ type location =>
  if type.isNullable then .ok .null else (RowFault.missing type).at location

/-- Reads a document other than `null` as a plain value, and refuses it where other values are
expected inside. -/
def readPlain (ds : Declarations) (j : Json) : ValueReader := fun scope type location =>
  match type.core with
  | .primitive p => (p.read j).at location
  | .named name =>
    match ds.fieldRef? scope name with
    | some (.enum e) => (e.read j).at location
    | some (.bean b) => (RowFault.expected (.objectOf b.fullName)).at location
    | _ => .error (.schema (.unknownType name))
  | .sequence kind element =>
    (RowFault.expected (.arrayFor (.sequence kind element))).at location
  | .map key value => (RowFault.expected (.objectFor (.map key value))).at location
  | .nullable _ => readNull scope type location

/-- Reads the items of a sequence from an index on. -/
def readItems (scope : BeanDef) (element : TypeExpr) (location : String) (index : Nat) :
    List ValueReader → Except DataError (List Value)
  | [] => .ok []
  | read :: rest => do
    let v ← read scope element (locationAt location index)
    return v :: (← readItems scope element location (index + 1) rest)

/-- Reads the entries of a map that is given as pairs; an item that is none is `none`. -/
def readPairs (scope : BeanDef) (key value : TypeExpr) (location : String) (index : Nat) :
    List (Option (ValueReader × ValueReader)) → Except DataError (List (Value × Value))
  | [] => .ok []
  | none :: _ => RowFault.badEntry.at (locationAt location index)
  | some (readKey, readValue) :: rest => do
    let k ← readKey scope key (locationAt location index)
    let v ← readValue scope value (locationAt location index)
    return (k, v) :: (← readPairs scope key value location (index + 1) rest)

/-- Reads an array: a sequence, or a map given as pairs. -/
def readArray (ds : Declarations) (j : Json) (items : List ValueReader)
    (pairs : List (Option (ValueReader × ValueReader))) : ValueReader := fun scope type location =>
  match type.core with
  | .sequence _ element => (readItems scope element location 0 items).map .seq
  | .map key value => (readPairs scope key value location 0 pairs).map .map
  | _ => readPlain ds j scope type location

/-- Reads the entries of a map that is given as an object; the keys are texts. -/
def readEntries (ds : Declarations) (scope : BeanDef) (key value : TypeExpr) (location : String) :
    List (String × ValueReader) → Except DataError (List (Value × Value))
  | [] => .ok []
  | (name, read) :: rest => do
    let k ← readPlain ds (.string name) scope key (locationOf location name)
    let v ← read scope value (locationOf location name)
    return (k, v) :: (← readEntries ds scope key value location rest)

/-- Reads the fields of a bean, each in the scope of the bean that declares it; a field without
member is absent. -/
def readFields (location : String) (members : List (String × ValueReader)) :
    List (BeanDef × FieldDef) → Except DataError (List (String × Value))
  | [] => .ok []
  | (owner, field) :: rest => do
    let read := ((members.find? (·.1 = field.name)).map (·.2)).getD readNull
    let v ← read owner field.type (locationOf location field.name)
    return (field.name, v) :: (← readFields location members rest)

/-- The bean that an object is an instance of: the declared one, or the one among it and its
descendants that the object names, by its full name or its name. -/
def concreteBean (ds : Declarations) (declared : BeanDef) : Option String → Reading BeanDef
  | none => .ok declared
  | some typeName =>
    match (declared :: ds.descendants declared.fullName).find? fun b =>
        b.fullName = typeName || b.name = typeName with
    | some b => .ok b
    | none => .error (.notSubtype typeName declared.fullName)

/-- Whether exported instances of a bean name their type: it has a parent or descendants. -/
def isPolymorphic (ds : Declarations) (b : BeanDef) : Bool :=
  !(ds.descendants b.fullName).isEmpty || b.parent.isSome

/-- Reads an object as an instance of a bean. `typeName` is the type that the object names, and
members with a name in `reserved` are passed over. -/
def readBean (ds : Declarations) (reserved : List String) (typeName : Option String)
    (members : List (String × ValueReader)) (declared : BeanDef) (location : String) :
    Except DataError BeanValue := do
  let concrete ← (concreteBean ds declared typeName).at location
  if concrete.isAbstract then (RowFault.abstractBean concrete.fullName).at location
  else
    let fields := ds.hierarchyFields concrete
    let isKnown (name : String) : Bool :=
      name = Value.typeKey || name ∈ reserved || fields.any (·.2.name = name)
    match members.find? (!isKnown ·.1) with
    | some (name, _) => (RowFault.unknownField name concrete.fullName).at location
    | none => do
      let values ← readFields location members fields
      return ⟨concrete.fullName, isPolymorphic ds declared, values⟩

/-- Reads an object: a bean, or a map whose keys are the names of the members. -/
def readObject (ds : Declarations) (j : Json) (members : List (String × ValueReader)) :
    ValueReader := fun scope type location =>
  match type.core with
  | .map key value => (readEntries ds scope key value location members).map .map
  | .named name =>
    match ds.fieldRef? scope name with
    | some (.bean b) =>
      let typeName := (j.member? Value.typeKey).bind Json.asString?
      (readBean ds [] typeName members b location).map BeanValue.toValue
    | _ => readPlain ds j scope type location
  | _ => readPlain ds j scope type location

mutual

/-- The reader of a document. -/
def Json.reader (ds : Declarations) : Json → ValueReader
  | null => readNull
  | array items => readArray ds (array items) (itemReaders ds items) (pairReaders ds items)
  | object members => readObject ds (object members) (memberReaders ds members)
  | j => readPlain ds j

/-- The readers of the items of an array. -/
def Json.itemReaders (ds : Declarations) : List Json → List ValueReader
  | [] => []
  | j :: rest => reader ds j :: itemReaders ds rest

/-- The readers of the items of an array of pairs. -/
def Json.pairReaders (ds : Declarations) : List Json → List (Option (ValueReader × ValueReader))
  | [] => []
  | array [k, v] :: rest => some (reader ds k, reader ds v) :: pairReaders ds rest
  | _ :: rest => none :: pairReaders ds rest

/-- The readers of the members of an object. -/
def Json.memberReaders (ds : Declarations) : List (String × Json) → List (String × ValueReader)
  | [] => []
  | (name, j) :: rest => (name, reader ds j) :: memberReaders ds rest

end

/-- Reads tags that are given as one text, between commas, semicolons or bars. -/
def splitTags (text : String) : List String :=
  (text.toList.splitOnP fun c => c = ',' || c = ';' || c = '|').filterMap fun part =>
    let tag := Text.trim part
    if tag = [] then none else some (String.ofList tag)

/-- The tags of a row. -/
def readTags (row : Json) : Reading (List String) :=
  match row.member? tagsKey with
  | none | some .null => .ok []
  | some (.string text) => .ok (splitTags text)
  | some (.array items) =>
    match items.mapM Json.asString? with
    | some tags => .ok tags
    | none => .error .badTag
  | some _ => .error .badTags

/-- Reads a row as an instance of a bean. -/
def readRow (ds : Declarations) (b : BeanDef) (location : String) : Json → Except DataError BeanValue
  | .object members =>
    let typeName := ((Json.object members).member? Value.typeKey).bind Json.asString?
    readBean ds [tagsKey] typeName (Json.memberReaders ds members) b location
  | _ => (RowFault.expected (.objectOf b.fullName)).at location

/-- Reads a row of a table. -/
def TypeGraph.readRecord (g : TypeGraph) (t : TableDef) (location : String) (row : Json) :
    Except DataError Record :=
  match g.types.bean? t.valueType with
  | none => .error (.schema (.unknownType t.valueType))
  | some b => do
    let tags ← (readTags row).at location
    let data ← readRow g.types b location row
    return ⟨data, tags, some location⟩

/-- Reads rows of a table at the locations of an array's items, from an index on. -/
def TypeGraph.readRecords (g : TypeGraph) (t : TableDef) (location : String) (index : Nat) :
    List Json → Except DataError (List Record)
  | [] => .ok []
  | row :: rest => do
    let r ← g.readRecord t (locationAt location index) row
    return r :: (← g.readRecords t location (index + 1) rest)

end ConfigTables
