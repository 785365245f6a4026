import ConfigTables.Proofs.Rows.Reimport

/-!
    Texts of enum values. A text, without the blanks around it, is first taken for an integer; then,
    for an enum of flags, for a combination when there are bars in it; and only then for the name of an
    item or its alternate. `read_integer_iff`, `read_combination_iff` and `read_name_iff` say what it is
    read as in each of these cases.

    Two things follow. An item is what its name is read as when the name is no integer, no combination
    and has no blanks around it, and no earlier item has it for its alternate; `itemName_reading` also
    says what becomes of the names of other forms. And the exported integer of an enum value is read as
    this integer again, unless the value is a combination whose bits are the value of no item:
    `exported_integer_accepted_iff`. -/

namespace ConfigTables

/-- The integer of 64 bits that a text is. -/
def integerOf? (text : String) : Option Int :=
  (Number.readInt? text.toList).filter (Number.fitsInt64 ·)

theorem Text.toList_trimmed (s : String) : (Text.trimmed s).toList = Text.trim s.toList :=
  String.toList_ofList

theorem toInt_ofInt_of_fits {value : Int} (h : Number.fitsInt32 value = true) :
    (Int32.ofInt value).toInt = value := by
  have hmax : Int32.maxValue.toInt = 2 ^ 31 - 1 := rfl
  have hmin : Int32.minValue.toInt = -2 ^ 31 := rfl
  simp only [Number.fitsInt32, Bool.and_eq_true, decide_eq_true_eq] at h
  exact Int32.toInt_ofInt_of_le (by omega) (by omega)

namespace EnumDef

/-- A text that is a combination of flags. -/
structure Combines (e : EnumDef) (text : String) : Prop where
  flags : e.flags = true
  bars : '|' ∈ text.toList
  notInteger : integerOf? text = none

/-- The items that stand before an item. -/
def before (e : EnumDef) (i : EnumItem) : List EnumItem := e.items.takeWhile (· ≠ i)

/-- An item is what its name is read as. -/
def ReadsName (e : EnumDef) (i : EnumItem) : Prop :=
  e.read (.string i.name) = .ok (.enum i.name i.value)

/-- When an item is what its name is read as, by what the name is without the blanks around it: an
integer, a combination, or neither, and then by whether there are blanks around it. -/
structure NameReading (e : EnumDef) (i : EnumItem) : Prop where
  integer : ∀ value, integerOf? (Text.trimmed i.name) = some value →
    (e.ReadsName i ↔ i.value.toInt = value ∧ ∀ j ∈ e.before i, j.value ≠ i.value)
  combination : e.Combines (Text.trimmed i.name) →
    (e.ReadsName i ↔ Text.trimmed i.name = i.name ∧
      ∃ items, (flagNames i.name).mapM e.item? = some items ∧ flagBits items = i.value)
  plain : integerOf? (Text.trimmed i.name) = none → ¬e.Combines (Text.trimmed i.name) →
    Text.trimmed i.name = i.name → (∀ j ∈ e.before i, j.alternate ≠ some i.name) → e.ReadsName i
  padded : integerOf? (Text.trimmed i.name) = none → ¬e.Combines (Text.trimmed i.name) →
    Text.trimmed i.name ≠ i.name → (e.ReadsName i ↔ e.item? (Text.trimmed i.name) = some i)

variable {e : EnumDef} {i : EnumItem} {v : Value}

/-! ### What a text is read as -/

theorem value_of_itemOfValue? {value : Int32} (h : e.itemOfValue? value = some i) :
    i.value = value := by
  simpa using List.find?_some h

/-- An integer is read as the first item that has it for its value. -/
theorem readValue_eq_ok_iff {value : Int} : e.readValue value = .ok v ↔
    ∃ i, i.value.toInt = value ∧ e.itemOfValue? i.value = some i ∧ v = .enum i.name i.value := by
  unfold readValue
  constructor
  · intro h
    by_cases hfits : Number.fitsInt32 value = true
    · cases hitem : e.itemOfValue? (.ofInt value) with
      | none => simp [hfits, hitem] at h
      | some i =>
        have hvalue := value_of_itemOfValue? hitem
        simp only [hfits, if_true, hitem, Except.ok.injEq] at h
        exact ⟨i, by rw [hvalue, toInt_ofInt_of_fits hfits], by rw [hvalue, hitem], h.symm⟩
    · simp [hfits] at h
  · rintro ⟨i, rfl, hitem, rfl⟩
    simp only [fitsInt32_toInt, if_true, Int32.ofInt_toInt, hitem]

/-- Reading a combination succeeds exactly when every name is that of an item. -/
theorem combine_eq_ok_iff {names : List String} {start bits : Int32} :
    e.combine start names = .ok bits ↔ ∃ items, names.mapM e.item? = some items ∧
      bits = items.foldl (fun bits i => bits ||| i.value) start := by
  refine ⟨combine_eq_ok, ?_⟩
  rintro ⟨items, hitems, rfl⟩
  induction names generalizing start items with
  | nil =>
    cases hitems
    rfl
  | cons name rest ih =>
    rw [List.mapM_cons] at hitems
    obtain ⟨i, hi, hitems⟩ := Option.bind_eq_some_iff.1 hitems
    obtain ⟨others, hothers, hitems⟩ := Option.bind_eq_some_iff.1 hitems
    cases hitems
    exact bind_eq_ok_iff.2 ⟨i, readName_eq_ok_iff.2 hi, ih others hothers⟩

/-- A text that is an integer is read as the first item that has it for its value. -/
theorem read_integer_iff {s : String} {value : Int}
    (h : integerOf? (Text.trimmed s) = some value) : e.read (.string s) = .ok v ↔
      ∃ i, i.value.toInt = value ∧ e.itemOfValue? i.value = some i ∧ v = .enum i.name i.value := by
  rw [integerOf?, Text.toList_trimmed] at h
  rw [read, readText, h]
  exact readValue_eq_ok_iff

/-- A combination is read as the bits of the items that it names, and keeps its text. -/
theorem read_combination_iff {s : String} (h : e.Combines (Text.trimmed s)) :
    e.read (.string s) = .ok v ↔ ∃ items, (flagNames (Text.trimmed s)).mapM e.item? = some items ∧
      v = .enum (Text.trimmed s) (flagBits items) := by
  have hnone := h.notInteger
  have hbars := h.bars
  rw [Text.toList_trimmed] at hbars
  rw [integerOf?, Text.toList_trimmed] at hnone
  rw [read, readText, hnone]
  simp only [h.flags, hbars, decide_true, Bool.and_self, if_true, map_eq_ok_iff, combine_eq_ok_iff,
    flagNames, Text.toList_trimmed]
  constructor
  · rintro ⟨bits, ⟨items, hitems, rfl⟩, rfl⟩
    exact ⟨items, hitems, rfl⟩
  · rintro ⟨items, hitems, rfl⟩
    exact ⟨_, ⟨items, hitems, rfl⟩, rfl⟩

/-- Any other text is read as the first item that has it for its name or its alternate. -/
theorem read_name_iff {s : String} (hnone : integerOf? (Text.trimmed s) = none)
    (h : ¬e.Combines (Text.trimmed s)) : e.read (.string s) = .ok v ↔
      ∃ i, e.item? (Text.trimmed s) = some i ∧ v = .enum i.name i.value := by
  have hplain : (e.flags && decide ('|' ∈ Text.trim s.toList)) = false := by
    by_contra hcombined
    simp only [Bool.not_eq_false, Bool.and_eq_true, decide_eq_true_eq] at hcombined
    exact h ⟨hcombined.1, Text.toList_trimmed s ▸ hcombined.2, hnone⟩
  rw [integerOf?, Text.toList_trimmed] at hnone
  rw [read, readText, hnone]
  simp only [hplain, Bool.false_eq_true, if_false, map_eq_ok_iff, readName_eq_ok_iff]
  exact exists_congr fun i => and_congr_right fun _ => eq_comm

/-! ### Names of items -/

/-- Where the names of the items differ, an item is what its name is read as, as soon as an item of
this name is. -/
theorem eq_of_read_name (hnames : (e.items.map (·.name)).Nodup) {i j : EnumItem} (hi : i ∈ e.items)
    (hj : j ∈ e.items) (h : Value.enum i.name i.value = .enum j.name j.value) : j = i := by
  injection h with hname _
  exact List.inj_on_of_nodup_map hnames hj hi hname.symm

/-- An item is the first one with its value when no item before it has this value. -/
theorem itemOfValue?_eq_some_iff (hi : i ∈ e.items) :
    e.itemOfValue? i.value = some i ↔ ∀ j ∈ e.before i, j.value ≠ i.value := by
  rw [itemOfValue?, find?_eq_some_iff_takeWhile hi (by simp), before]
  simp

/-- An item is the first one to have its name for a name or alternate when no item before it has it
for its alternate. -/
theorem item?_eq_some_iff (hnames : (e.items.map (·.name)).Nodup) (hi : i ∈ e.items) :
    e.item? i.name = some i ↔ ∀ j ∈ e.before i, j.alternate ≠ some i.name := by
  rw [item?, find?_eq_some_iff_takeWhile hi (by simp), ← before]
  refine forall₂_congr fun j hj => ?_
  have hne : j ≠ i := by simpa using List.mem_takeWhile_imp hj
  have hother : j.name ≠ i.name := fun hname =>
    hne (List.inj_on_of_nodup_map hnames (List.takeWhile_subset _ hj) hi hname)
  simp [hother]

theorem readsName_of_integer (hnames : (e.items.map (·.name)).Nodup) (hi : i ∈ e.items)
    {value : Int} (h : integerOf? (Text.trimmed i.name) = some value) :
    e.ReadsName i ↔ i.value.toInt = value ∧ ∀ j ∈ e.before i, j.value ≠ i.value := by
  rw [ReadsName, read_integer_iff h, ← itemOfValue?_eq_some_iff hi]
  constructor
  · rintro ⟨j, hvalue, hfound, hsame⟩
    cases eq_of_read_name hnames hi (List.mem_of_find?_eq_some hfound) hsame
    exact ⟨hvalue, hfound⟩
  · rintro ⟨hvalue, hfound⟩
    exact ⟨i, hvalue, hfound, rfl⟩

theorem readsName_of_combines (h : e.Combines (Text.trimmed i.name)) :
    e.ReadsName i ↔ Text.trimmed i.name = i.name ∧
      ∃ items, (flagNames i.name).mapM e.item? = some items ∧ flagBits items = i.value := by
  rw [ReadsName, read_combination_iff h]
  constructor
  · rintro ⟨items, hitems, hsame⟩
    injection hsame with htext hbits
    rw [← htext] at hitems
    exact ⟨htext.symm, items, hitems, hbits.symm⟩
  · rintro ⟨htext, items, hitems, hbits⟩
    rw [htext, hbits.symm]
    exact ⟨items, hitems, rfl⟩

theorem readsName_iff_item? (hnames : (e.items.map (·.name)).Nodup) (hi : i ∈ e.items)
    (hnone : integerOf? (Text.trimmed i.name) = none) (h : ¬e.Combines (Text.trimmed i.name)) :
    e.ReadsName i ↔ e.item? (Text.trimmed i.name) = some i := by
  rw [ReadsName, read_name_iff hnone h]
  constructor
  · rintro ⟨j, hfound, hsame⟩
    cases eq_of_read_name hnames hi (List.mem_of_find?_eq_some hfound) hsame
    exact hfound
  · intro hfound
    exact ⟨i, hfound, rfl⟩

theorem nameReading (hnames : (e.items.map (·.name)).Nodup) (hi : i ∈ e.items) :
    e.NameReading i where
  integer _ h := readsName_of_integer hnames hi h
  combination h := readsName_of_combines h
  plain hnone h htext hfree := by
    rw [readsName_iff_item? hnames hi hnone h, htext]
    exact (item?_eq_some_iff hnames hi).2 hfree
  padded hnone h _ := readsName_iff_item? hnames hi hnone h

/-! ### Exported integers -/

theorem read_int_eq_ok_iff {k : Int32} :
    e.read (.int k.toInt) = .ok v ↔ ∃ i, e.itemOfValue? k = some i ∧ v = .enum i.name k := by
  have hread : readInteger (.int k.toInt) = .ok k.toInt := readInteger_int (int32_le_maxValue k)
  rw [Json.int, read, ← Json.int, hread]
  change e.readValue k.toInt = .ok v ↔ _
  rw [readValue_eq_ok_iff]
  refine exists_congr fun i => ?_
  rw [Int32.toInt_inj]
  constructor
  · rintro ⟨rfl, hfound, rfl⟩
    exact ⟨hfound, rfl⟩
  · rintro ⟨hfound, rfl⟩
    have hvalue := value_of_itemOfValue? hfound
    exact ⟨hvalue, hvalue.symm ▸ hfound, by rw [hvalue]⟩

/-- An integer is accepted exactly when it is the value of an item. -/
theorem exists_read_int_iff {k : Int32} :
    (∃ v, e.read (.int k.toInt) = .ok v) ↔ ∃ i ∈ e.items, i.value = k := by
  have hfound : (∃ i, e.itemOfValue? k = some i) ↔ ∃ i ∈ e.items, i.value = k := by
    rw [← Option.isSome_iff_exists, itemOfValue?, List.find?_isSome]
    simp
  rw [← hfound]
  constructor
  · rintro ⟨v, hv⟩
    obtain ⟨i, hi, _⟩ := read_int_eq_ok_iff.1 hv
    exact ⟨i, hi⟩
  · rintro ⟨i, hi⟩
    exact ⟨_, read_int_eq_ok_iff.2 ⟨i, hi, rfl⟩⟩

/-- A text gives the value of an item unless it is a combination. -/
theorem exists_item_of_read {s : String} (h : e.read (.string s) = .ok v) :
    ∃ item k, v = .enum item k ∧
      (¬e.Combines (Text.trimmed s) → ∃ i ∈ e.items, i.value = k) := by
  cases hinteger : integerOf? (Text.trimmed s) with
  | some value =>
    obtain ⟨i, _, hfound, rfl⟩ := (read_integer_iff hinteger).1 h
    exact ⟨_, _, rfl, fun _ => ⟨i, List.mem_of_find?_eq_some hfound, rfl⟩⟩
  | none =>
    by_cases hcombines : e.Combines (Text.trimmed s)
    · obtain ⟨items, _, rfl⟩ := (read_combination_iff hcombines).1 h
      exact ⟨_, _, rfl, fun hplain => absurd hcombines hplain⟩
    · obtain ⟨i, hfound, rfl⟩ := (read_name_iff hinteger hcombines).1 h
      exact ⟨_, _, rfl, fun _ => ⟨i, List.mem_of_find?_eq_some hfound, rfl⟩⟩

end EnumDef

/-- At a position of an enum, a document without parts is read as a value of the enum. -/
theorem Position.readPlain_enum {ds : Declarations} {p : Position} {e : EnumDef}
    (h : p.enum? ds = some e) (j : Json) (location : String) :
    readPlain ds j p.scope p.type location = (e.read j).at location := by
  obtain ⟨name, hcore, href⟩ := enum?_eq_some_iff.1 h
  simp only [readPlain, hcore, href]

theorem TypeGraph.nodup_itemNames (g : TypeGraph) {e : EnumDef} (he : .enum e ∈ g.types) :
    (e.items.map (·.name)).Nodup := by
  have hchecked : Declarations.itemFault? e = none := g.checks.2.2 _ he
  rw [Declarations.itemFault?, Option.map_eq_none_iff, firstRepeated?_eq_none_iff] at hchecked
  exact hchecked.1

/-- What the name of an item is read as, at every position of its enum. -/
theorem itemName_reading (g : TypeGraph) (e : EnumDef) (he : .enum e ∈ g.types) (i : EnumItem)
    (hi : i ∈ e.items) : e.NameReading i ∧
      ∀ p : Position, p.enum? g.types = some e → ∀ location,
        (Json.string i.name).reader g.types p.scope p.type location =
          (e.read (.string i.name)).at location := by
  refine ⟨EnumDef.nameReading (g.nodup_itemNames he) hi, fun p hp location => ?_⟩
  exact Position.readPlain_enum hp (.string i.name) location

namespace Sizes

/-- A size with an alternate. -/
def two : EnumItem := ⟨"Two", 2, some "Both", none⟩

/-- Sizes whose names are a number, begin with a blank, are made of other names, and are the alternate
of another size. -/
def others : List EnumItem :=
  [⟨"2", 1, none, none⟩, ⟨" Big", 4, none, none⟩, ⟨"Two|Both", 8, none, none⟩, ⟨"Both", 16, none, none⟩]

/-- Sizes that may be combined. -/
def size : EnumDef := ⟨"", "Size", true, [], two :: others, none⟩

/-- The sizes as they are accepted. -/
def graph : TypeGraph where
  types := [.enum size]
  consistent := by decide

/-- The first size is what its name is read as. -/
theorem two_read : .enum size ∈ graph.types ∧ two ∈ size.items ∧ size.ReadsName two := by
  have hsize : .enum size ∈ graph.types := by decide
  have htwo : two ∈ size.items := by decide
  have hplain : ¬size.Combines (Text.trimmed two.name) := fun h => absurd h.bars (by decide)
  exact ⟨hsize, htwo, (itemName_reading graph size hsize two htwo).1.plain rfl hplain rfl (by decide)⟩

/-- The other sizes are not what their names are read as. -/
theorem others_not_read :
    .enum size ∈ graph.types ∧ ∀ i ∈ others, i ∈ size.items ∧ ¬size.ReadsName i := by
  have hnumber : size.read (.string "2") = .ok (.enum "Two" 2) := rfl
  have hpadded : size.read (.string " Big") = .error (.notEnumItem "Big" "Size") := rfl
  have hcombined : size.read (.string "Two|Both") = .ok (.enum "Two|Both" 2) := rfl
  have hcaptured : size.read (.string "Both") = .ok (.enum "Two" 2) := rfl
  refine ⟨by decide, fun i hi => ⟨List.mem_cons_of_mem _ hi, ?_⟩⟩
  simp only [others, List.mem_cons, List.not_mem_nil, or_false] at hi
  rcases hi with rfl | rfl | rfl | rfl
  · simp [EnumDef.ReadsName, hnumber]
  · simp [EnumDef.ReadsName, hpadded]
  · simp [EnumDef.ReadsName, hcombined]
  · simp [EnumDef.ReadsName, hcaptured]

end Sizes

/-- The integer that is exported for an enum value given by a text is accepted, at every position of
the enum, exactly when the text is no combination or its bits are the value of an item; and then it
gives the same integer. -/
theorem exported_integer_accepted_iff (g : TypeGraph) (e : EnumDef) (s : String) (v : Value)
    (h : e.read (.string s) = .ok v) : ∃ item k, v = .enum item k ∧
      ((∃ w, e.read v.toJson = .ok w) ↔
        (e.Combines (Text.trimmed s) → ∃ i ∈ e.items, i.value = k)) ∧
      (∀ w, e.read v.toJson = .ok w → ∃ other, w = .enum other k) ∧
      ∀ p : Position, p.enum? g.types = some e → ∀ location,
        v.toJson.reader g.types p.scope p.type location = (e.read v.toJson).at location := by
  obtain ⟨item, k, rfl, hplain⟩ := EnumDef.exists_item_of_read h
  refine ⟨item, k, rfl, ?_, fun w hw => ?_, fun p hp location => ?_⟩
  · rw [Value.toJson, EnumDef.exists_read_int_iff]
    refine ⟨fun hitem _ => hitem, fun hitem => ?_⟩
    by_cases hcombines : e.Combines (Text.trimmed s)
    · exact hitem hcombines
    · exact hplain hcombines
  · obtain ⟨i, _, rfl⟩ := EnumDef.read_int_eq_ok_iff.1 hw
    exact ⟨i.name, rfl⟩
  · exact Position.readPlain_enum hp (Value.enum item k).toJson location

namespace Doors

/-- What may be done with a door: opening, locking, and what else has a name. -/
def access (others : List EnumItem) : EnumDef :=
  ⟨"", "Access", true, [], ⟨"Open", 1, none, none⟩ :: ⟨"Lock", 2, some "l", none⟩ :: others, none⟩

/-- Opening and locking. -/
def both : EnumItem := ⟨"Both", 3, none, none⟩

/-- Doors with a name for both. -/
def graph : TypeGraph where
  types := [.enum (access [both])]
  consistent := by decide

/-- The bits of a combination that has a name are accepted as that. -/
theorem both_accepted : (access [both]).read (.string "Open | l") = .ok (.enum "Open | l" 3) ∧
    ∃ w, (access [both]).read (Value.enum "Open | l" 3).toJson = .ok w := by
  have hread : (access [both]).read (.string "Open | l") = .ok (.enum "Open | l" 3) := rfl
  obtain ⟨item, k, hv, haccepted, _⟩ := exported_integer_accepted_iff graph _ _ _ hread
  cases hv
  exact ⟨hread, haccepted.2 fun _ => ⟨both, by decide, rfl⟩⟩

/-- The bits of a combination without a name are refused. -/
theorem combination_refused : (∃ g, TypeGraph.ofTypes [.enum (access [])] = .ok g) ∧
    (access []).read (.string "Open|Lock") = .ok (.enum "Open|Lock" 3) ∧
    (access []).read (Value.enum "Open|Lock" 3).toJson = .error (.notEnumValue 3 "Access") :=
  ⟨⟨_, rfl⟩, rfl, rfl⟩

end Doors

end ConfigTables
