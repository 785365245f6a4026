import ConfigTables.Proofs.Rows.Conformance
import ConfigTables.Proofs.Rows.Exported
import ConfigTables.Rows.Store
import Mathlib

/-!
    The keys of rows. Rows are merged by the text of a key, and an export shows the key as the member
    of the index field. Both say the same about the rows of one table: they all hold a value of one
    type there, those of descendants too, which inherit the field; and among the values of one type
    the text of a key determines its exported form. -/

namespace ConfigTables

/-- A record that was read from a row of a table. -/
def TypeGraph.Row (g : TypeGraph) (t : TableDef) (r : Record) : Prop :=
  ∃ location row, g.readRecord t location row = .ok r

/-- What an export shows of a record in the index field. -/
def Record.exportedKey (r : Record) (index : String) : Option Json := r.data.toJson.member? index

/-- The text of a key from its exported form. -/
def Json.keyText? : Json → Option String
  | bool b => some (if b then "true" else "false")
  | number (.integer i) => some (toString i)
  | string s => some s
  | _ => none

namespace Value
variable {v w : Value} {text : String}

theorem keyText?_toJson (h : v.keyText? = some text) : v.toJson.keyText? = some text := by
  cases v with
  | bool _ | int _ | long _ | string _ | datetime _ | enum _ _ => exact h
  | null | float _ | double _ | bean _ _ _ | seq _ | map _ => cases h

/-- Keys with different texts are exported differently. -/
theorem keyText?_eq_of_toJson_eq {text' : String} (hv : v.keyText? = some text)
    (hw : w.keyText? = some text') (h : v.toJson = w.toJson) : text = text' := by
  have hjson := keyText?_toJson hv
  rw [h, keyText?_toJson hw] at hjson
  exact (Option.some.inj hjson).symm

/-- Integers with one text are exported alike. -/
theorem int_eq_of_text_eq {i k : Int} (h : some (toString i) = some (toString k)) :
    Json.int i = Json.int k :=
  congrArg Json.int (Int.repr_injective (Option.some.inj h))

/-- Keys of one primitive type with one text are exported alike. -/
theorem toJson_eq_of_holds {p : Primitive} (hv : p.Holds v) (hw : p.Holds w)
    (htext : v.keyText? = some text) (hsame : v.keyText? = w.keyText?) : v.toJson = w.toJson := by
  cases hv with
  | bool b =>
    cases hw with
    | bool b' =>
      cases b <;> cases b'
      · rfl
      · exact absurd hsame (by decide)
      · exact absurd hsame (by decide)
      · rfl
  | int i =>
    cases hw with
    | int k => exact int_eq_of_text_eq hsame
  | long i =>
    cases hw with
    | long k => exact int_eq_of_text_eq hsame
  | string s =>
    cases hw with
    | string s' => exact congrArg Json.string (Option.some.inj hsame)
  | datetime seconds =>
    cases hw with
    | datetime seconds' => exact int_eq_of_text_eq hsame
  | float x => cases htext
  | double x => cases htext

/-- The key of an enum is the integer of its value, whichever items it is given by. -/
theorem toJson_eq_of_enum {e : EnumDef} (hv : e.Holds v) (hw : e.Holds w)
    (hsame : v.keyText? = w.keyText?) : v.toJson = w.toJson := by
  cases hv <;> cases hw <;> exact int_eq_of_text_eq hsame

/-- Keys of one type with one text are exported alike. -/
theorem toJson_eq_of_conforms {ds : Declarations} {scope : BeanDef} {type : TypeExpr}
    (hv : ds.Conforms scope type v) (hw : ds.Conforms scope type w)
    (htext : v.keyText? = some text) (htext' : w.keyText? = some text) : v.toJson = w.toJson := by
  have hsame : v.keyText? = w.keyText? := htext.trans htext'.symm
  induction hv with
  | primitive hholds =>
    cases hw with
    | primitive hholds' => exact toJson_eq_of_holds hholds hholds' htext hsame
  | enum href hholds =>
    cases hw with
    | enum href' hholds' =>
      cases href.symm.trans href'
      exact toJson_eq_of_enum hholds hholds' hsame
    | bean => cases htext'
  | bean => cases htext
  | seq => cases htext
  | map => cases htext
  | null => cases htext
  | present _ ih =>
    cases hw with
    | null => cases htext'
    | present hw => exact ih hw htext hsame

end Value

theorem Record.key_eq_ok_iff {r : Record} {t : TableDef} {index text : String} :
    r.key t index = .ok text ↔ ∃ v, r.data.field? index = some v ∧ v.keyText? = some text := by
  unfold key
  cases r.data.field? index with
  | none => simp
  | some v => cases htext : v.keyText? <;> simp [htext]

namespace TypeGraph.Row
variable {g : TypeGraph} {t : TableDef} {f : BeanDef × FieldDef} {r r' : Record}

/-- The key of a table is a field of every row, also of a row of a descendant, and no other field
hides it: the record holds a value of its type, and the export shows this value. -/
theorem exists_key (h : g.Row t r) (hkey : g.types.keyField? t = some f) :
    ∃ v, r.data.field? f.2.name = some v ∧ g.types.Conforms f.1 f.2.type v ∧
      r.exportedKey f.2.name = some v.toJson := by
  obtain ⟨location, row, hread⟩ := h
  obtain ⟨d, hd, hf, _⟩ := g.keyField?_eq_some hkey
  obtain ⟨c, hinstance, hfields⟩ := conformsTo_readRecord hd hread
  have hdeclared := (g.bean?_eq_some_iff.1 hd).1
  have hc : .bean c ∈ g.types ∧ f ∈ g.types.hierarchyFields c := by
    rcases hinstance.related with rfl | hbelow
    · exact ⟨hdeclared, hf⟩
    · exact ⟨hbelow.declared, g.hierarchyFields_subset hbelow hf⟩
  obtain ⟨v, hzip⟩ := hinstance.exists_value hc.2
  have hnodup : (r.data.fields.map (·.1)).Nodup := hinstance.names ▸ (g.fields_checked hc.1).1
  have hmem := (List.of_mem_zip hzip).2
  exact ⟨v, BeanValue.field?_of_mem hnodup hmem, hfields _ hzip, BeanValue.member?_field hnodup hmem⟩

/-- The records of a table that have a key: the text and the exported form tell the same of them. -/
theorem key_eq_iff (h : g.Row t r) (h' : g.Row t r') (hkey : g.types.keyField? t = some f)
    {text text' : String} (htext : r.key t f.2.name = .ok text)
    (htext' : r'.key t f.2.name = .ok text') :
    text = text' ↔ r.exportedKey f.2.name = r'.exportedKey f.2.name := by
  obtain ⟨v, hfield, hconforms, hexported⟩ := h.exists_key hkey
  obtain ⟨v', hfield', hconforms', hexported'⟩ := h'.exists_key hkey
  obtain ⟨w, hw, htext⟩ := Record.key_eq_ok_iff.1 htext
  obtain ⟨w', hw', htext'⟩ := Record.key_eq_ok_iff.1 htext'
  cases hfield.symm.trans hw
  cases hfield'.symm.trans hw'
  rw [hexported, hexported', Option.some.injEq]
  constructor
  · rintro rfl
    exact Value.toJson_eq_of_conforms hconforms hconforms' htext htext'
  · exact Value.keyText?_eq_of_toJson_eq htext htext'

end TypeGraph.Row

end ConfigTables
