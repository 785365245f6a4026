import ConfigTables.Proofs.Rows.Exported
import ConfigTables.Proofs.Rows.Position

/-!
    Which values of a row are written as `null`. A path leads from a row to one of its positions, down
    fields, items and the two sides of map entries. The same path leads through the exported row to
    what is written for the value there (`at?_toJson`), because fields have different names and the
    order of items and entries is kept. Where the type is not nullable a value is never missing, and
    then `null` is only written for numbers that JSON has no text for: `exported_null_iff`. -/

namespace ConfigTables

/-- A step down in a row: to a field, an item of a sequence, or one side of an entry of a map. -/
inductive PathStep where
  | field (name : String)
  | item (index : Nat)
  | key (index : Nat)
  | value (index : Nat)

namespace Json

/-- The item of an array. -/
def item? (index : Nat) : Json → Option Json
  | array items => items[index]?
  | _ => none

/-- The two sides of an entry. -/
def sides? : Json → Option (Json × Json)
  | array [key, value] => some (key, value)
  | _ => none

/-- What stands one step down in an exported row; entries of maps are pairs there. -/
def down? (j : Json) : PathStep → Option Json
  | .field name => j.member? name
  | .item index => j.item? index
  | .key index => ((j.item? index).bind sides?).map (·.1)
  | .value index => ((j.item? index).bind sides?).map (·.2)

/-- What stands at the end of a path. -/
def at? (j : Json) (path : List PathStep) : Option Json := path.foldlM down? j

theorem at?_concat (j : Json) (path : List PathStep) (step : PathStep) :
    j.at? (path ++ [step]) = (j.at? path).bind (·.down? step) := by
  simp [at?, List.foldlM_append]

end Json

/-- The position that one step leads to. -/
inductive Position.PartAt (ds : Declarations) : PathStep → Position → Position → Prop
  | field {scope c : BeanDef} {type : TypeExpr} {typeName : String} {tagged : Bool}
      {fields : List (String × Value)} {f : (BeanDef × FieldDef) × String × Value} :
      ds.bean? typeName = some c → f ∈ (ds.hierarchyFields c).zip fields →
      PartAt ds (.field f.2.1) ⟨scope, type, .bean typeName tagged fields⟩ ⟨f.1.1, f.1.2.type, f.2.2⟩
  | item {scope : BeanDef} {type element : TypeExpr} {kind : Sequence} {items : List Value}
      {index : Nat} {v : Value} : type.core = .sequence kind element → items[index]? = some v →
      PartAt ds (.item index) ⟨scope, type, .seq items⟩ ⟨scope, element, v⟩
  | key {scope : BeanDef} {type key value : TypeExpr} {entries : List (Value × Value)}
      {index : Nat} {e : Value × Value} : type.core = .map key value → entries[index]? = some e →
      PartAt ds (.key index) ⟨scope, type, .map entries⟩ ⟨scope, key, e.1⟩
  | value {scope : BeanDef} {type key value : TypeExpr} {entries : List (Value × Value)}
      {index : Nat} {e : Value × Value} : type.core = .map key value → entries[index]? = some e →
      PartAt ds (.value index) ⟨scope, type, .map entries⟩ ⟨scope, value, e.2⟩

/-- The position below a row that a path leads to. -/
inductive BeanValue.HasPositionAt (ds : Declarations) (b : BeanValue) :
    List PathStep → Position → Prop
  | field {c : BeanDef} {f : (BeanDef × FieldDef) × String × Value} :
      ds.bean? b.typeName = some c → f ∈ (ds.hierarchyFields c).zip b.fields →
      HasPositionAt ds b [.field f.2.1] ⟨f.1.1, f.1.2.type, f.2.2⟩
  | part {path : List PathStep} {step : PathStep} {p q : Position} : HasPositionAt ds b path p →
      Position.PartAt ds step p q → HasPositionAt ds b (path ++ [step]) q

/-! ### Positions and paths -/

/-- A position is directly below another one exactly when some step leads to it. -/
theorem Position.part_iff {ds : Declarations} {p q : Position} :
    Position.Part ds p q ↔ ∃ step, Position.PartAt ds step p q := by
  constructor
  · intro h
    cases h with
    | field hc hf => exact ⟨_, .field hc hf⟩
    | item htype hv =>
      obtain ⟨index, hindex⟩ := List.mem_iff_getElem?.1 hv
      exact ⟨_, .item htype hindex⟩
    | key htype he =>
      obtain ⟨index, hindex⟩ := List.mem_iff_getElem?.1 he
      exact ⟨_, .key htype hindex⟩
    | value htype he =>
      obtain ⟨index, hindex⟩ := List.mem_iff_getElem?.1 he
      exact ⟨_, .value htype hindex⟩
  · rintro ⟨step, h⟩
    cases h with
    | field hc hf => exact .field hc hf
    | item htype hv => exact .item htype (List.mem_of_getElem? hv)
    | key htype he => exact .key htype (List.mem_of_getElem? he)
    | value htype he => exact .value htype (List.mem_of_getElem? he)

/-- Every position below a row has a path, and every path leads to one. -/
theorem BeanValue.hasPosition_iff {ds : Declarations} {b : BeanValue} {p : Position} :
    b.HasPosition ds p ↔ ∃ path, b.HasPositionAt ds path p := by
  constructor
  · intro h
    induction h with
    | field hc hf => exact ⟨_, .field hc hf⟩
    | part _ hpart ih =>
      obtain ⟨path, hpath⟩ := ih
      obtain ⟨step, hstep⟩ := Position.part_iff.1 hpart
      exact ⟨_, .part hpath hstep⟩
  · rintro ⟨path, h⟩
    induction h with
    | field hc hf => exact .field hc hf
    | part _ hstep ih => exact .part ih (Position.part_iff.2 ⟨_, hstep⟩)

section
variable {g : TypeGraph} {d : BeanDef} {b : BeanValue} {p q : Position}

/-- An instance of a declared bean is exported with a member for each field. -/
theorem member?_toJson (hd : .bean d ∈ g.types) (h : g.types.ConformsTo d b) {c : BeanDef}
    {f : (BeanDef × FieldDef) × String × Value}
    (hf : f ∈ (g.types.hierarchyFields c).zip b.fields) :
    b.toJson.member? f.2.1 = some f.2.2.toJson := by
  obtain ⟨_, hinstance, _⟩ := h
  exact BeanValue.member?_field (hinstance.nodup_names hd) (List.of_mem_zip hf).2

/-- One step leads from what is written for a value to what is written for its part. -/
theorem Position.down?_toJson (h : g.types.Conforms p.scope p.type p.value) {step : PathStep}
    (hstep : Position.PartAt g.types step p q) :
    p.value.toJson.down? step = some q.value.toJson := by
  cases hstep with
  | field hc hf =>
    obtain ⟨_, d, _, href, hconforms⟩ := h.conformsTo
    exact member?_toJson (Declarations.mem_of_fieldRef?_eq_some href) hconforms hf
  | item _ hv =>
    simp only [Value.toJson, Value.itemsToJson_eq_map, Json.down?, Json.item?, List.getElem?_map, hv,
      Option.map_some]
  | key _ he =>
    simp only [Value.toJson, Value.entriesToJson_eq_map, Json.down?, Json.item?, List.getElem?_map,
      he, Option.map_some, Option.bind_some, Json.sides?]
  | value _ he =>
    simp only [Value.toJson, Value.entriesToJson_eq_map, Json.down?, Json.item?, List.getElem?_map,
      he, Option.map_some, Option.bind_some, Json.sides?]

/-- A path leads through an exported row to what is written for the value of its position. -/
theorem at?_toJson (hd : .bean d ∈ g.types) (h : g.types.ConformsTo d b) {path : List PathStep}
    (hp : b.HasPositionAt g.types path p) : b.toJson.at? path = some p.value.toJson := by
  induction hp with
  | field hc hf =>
    have hmember := member?_toJson hd h hf
    simpa [Json.at?, Json.down?] using hmember
  | part hp hstep ih =>
    have hconforms := conforms_of_hasPosition hd h (BeanValue.hasPosition_iff.2 ⟨_, hp⟩)
    rw [Json.at?_concat, ih]
    exact Position.down?_toJson hconforms hstep

end

/-! ### What is written as `null` -/

theorem Json.real_eq_null_iff {x : Number.Double} : Json.real x = .null ↔ x.isFinite = false := by
  cases x <;> simp [Json.real, Number.Binary.isFinite]

/-- Widening makes no number finite, and none infinite. -/
theorem Number.Binary.isFinite_widened (x : Number.Single) :
    (x.convert .double).isFinite = x.isFinite := by
  cases x with
  | finite y => exact (finite_widened rfl).1
  | infinite _ => rfl
  | nan => rfl

/-- A value of a type that is not nullable is written as `null` exactly when it is a floating-point
number and not finite. -/
theorem Declarations.Conforms.toJson_eq_null_iff {ds : Declarations} {scope : BeanDef}
    {type : TypeExpr} {v : Value} (h : ds.Conforms scope type v) (hpresent : type.isNullable = false) :
    v.toJson = .null ↔
      (type = .primitive .float ∨ type = .primitive .double) ∧ v.isFinite = false := by
  cases h with
  | primitive hholds =>
    cases hholds with
    | float x =>
      simp [Value.toJson, Json.real_eq_null_iff, Number.Binary.isFinite_widened, Value.isFinite]
    | double x => simp [Value.toJson, Json.real_eq_null_iff, Value.isFinite]
    | bool _ => simp [Value.toJson]
    | int _ => simp [Value.toJson, Json.int]
    | long _ => simp [Value.toJson, Json.int]
    | string _ => simp [Value.toJson]
    | datetime _ => simp [Value.toJson, Json.int]
  | enum _ hholds => cases hholds <;> simp [Value.toJson, Json.int]
  | bean => simp [BeanValue.toValue, Value.toJson, Json.ofMap]
  | seq => simp [Value.toJson]
  | map => simp [Value.toJson]
  | null => cases hpresent
  | present => cases hpresent

/-- A path to any position of a row that is read leads through the exported row. Where the type of the
position is not nullable, it leads to `null` exactly when the type is one of floating-point numbers and
the number is not finite. -/
theorem exported_null_iff (g : TypeGraph) (t : TableDef) (location : String) (row : Json) (r : Record)
    (h : g.readRecord t location row = .ok r) :
    (∀ p, r.data.HasPosition g.types p ↔ ∃ path, r.data.HasPositionAt g.types path p) ∧
      ∀ path p, r.data.HasPositionAt g.types path p → p.type.isNullable = false →
        ∃ j, r.data.toJson.at? path = some j ∧ (j = .null ↔
          (p.type = .primitive .float ∨ p.type = .primitive .double) ∧ p.value.isFinite = false) := by
  refine ⟨fun p => BeanValue.hasPosition_iff, fun path p hp hpresent => ?_⟩
  obtain ⟨d, hd, hrow⟩ := readRecord_conforms g t location row r h
  have hdeclared : .bean d ∈ g.types := (g.bean?_eq_some_iff.1 hd).1
  have hconforms : g.types.Conforms p.scope p.type p.value :=
    conforms_of_hasPosition hdeclared hrow (BeanValue.hasPosition_iff.2 ⟨path, hp⟩)
  exact ⟨_, at?_toJson hdeclared hrow hp, hconforms.toJson_eq_null_iff hpresent⟩

namespace Probes

/-- A probe with the values that it measured at some times. -/
def probe : BeanDef :=
  ⟨"", "Probe", none, false, [],
    [⟨"measured", .map (.primitive .int) (.sequence .list (.primitive .float)), none⟩], none⟩

/-- A table of probes. -/
def table : TableDef := ⟨"", "TbProbe", "Probe", none, .list, [], none, none⟩

/-- The probes as they are accepted. -/
def graph : TypeGraph where
  types := [.bean probe, .table table]
  consistent := by decide

/-- A probe whose value was too low to be measured. -/
def row : Json :=
  .object [("measured", .array [.array [.int 7, .array [.string "-inf"]]])]

/-- What the probe measured, with the time. -/
def entry : Value × Value := (.int 7, .seq [.float (.infinite true)])

/-- The record of this row. -/
def record : Record where
  data := ⟨"Probe", false, [("measured", .map [entry])]⟩
  tags := []
  source := some "probes[0]"

/-- The time of the measured value, and the value. -/
theorem hasPositionAt_measured :
    record.data.HasPositionAt graph.types [.field "measured", .key 0]
        ⟨probe, .primitive .int, .int 7⟩ ∧
      record.data.HasPositionAt graph.types [.field "measured", .value 0, .item 0]
        ⟨probe, .primitive .float, .float (.infinite true)⟩ := by
  have hfield : ((probe, probe.fields[0]), "measured", .map [entry]) ∈
      (graph.types.hierarchyFields probe).zip record.data.fields := List.mem_singleton_self _
  have hmap : record.data.HasPositionAt graph.types [.field "measured"]
      ⟨probe, .map (.primitive .int) (.sequence .list (.primitive .float)), .map [entry]⟩ :=
    .field rfl hfield
  exact ⟨.part hmap (.key (e := entry) rfl rfl),
    .part (.part hmap (.value (e := entry) rfl rfl)) (.item rfl rfl)⟩

/-- The value is written as `null`, and its time is not. -/
theorem measured_written : graph.readRecord table "probes[0]" row = .ok record ∧
    (∃ j, record.data.toJson.at? [.field "measured", .key 0] = some j ∧ j ≠ .null) ∧
      record.data.toJson.at? [.field "measured", .value 0, .item 0] = some .null := by
  have hread : graph.readRecord table "probes[0]" row = .ok record := rfl
  obtain ⟨htime, hvalue⟩ := hasPositionAt_measured
  obtain ⟨_, hwritten⟩ := exported_null_iff graph table "probes[0]" row record hread
  refine ⟨hread, ?_, ?_⟩
  · obtain ⟨j, hj, hnull⟩ := hwritten _ _ htime rfl
    refine ⟨j, hj, fun h => ?_⟩
    simpa using (hnull.1 h).1
  · obtain ⟨j, hj, hnull⟩ := hwritten _ _ hvalue rfl
    cases hnull.2 ⟨.inl rfl, rfl⟩
    exact hj

/-- A value that is present, where none may be missing, is written as `null`. -/
theorem present_value_null : graph.readRecord table "probes[0]" row = .ok record ∧
    ∃ path p, record.data.HasPositionAt graph.types path p ∧ p.type.isNullable = false ∧
      p.value ≠ .null ∧ record.data.toJson.at? path = some .null :=
  ⟨rfl, _, _, hasPositionAt_measured.2, rfl, nofun, rfl⟩

end Probes

end ConfigTables
