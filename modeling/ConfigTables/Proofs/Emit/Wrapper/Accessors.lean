import ConfigTables.Proofs.Emit.Wrapper.Keywords

/-!
    The methods of the enums over instances. Each gives one field of whichever instance there is, by
    one identifier and with one type, so the structs of all instances must have that field. They do:
    a bean and the beans below it are declared apart from each other, but the fields of the one
    begin the fields of the others, with the same owners, and a field is declared from its owner
    alone. A table with such rows finds its key by one of these methods. They are written for the
    sake of the instances, though, and a bean with children need not have any; then the table still
    calls the method. -/

namespace ConfigTables.Wrapper

/-- What a variant holds has a field that a method gives: it is the struct of a bean of the file,
and this has a field of the same identifier and the same type, in a line of its code. -/
def FieldDecl.HeldBy (n : Names) (file : ManagerFile) (f : FieldDecl) (v : VariantDecl) : Prop :=
  ∃ inst ∈ file.beans, inst.fullName = v.tag ∧ inst.ident = v.ident ∧ inst.isAbstract = false ∧
    (∃ f' ∈ inst.fields, f'.ident = f.ident ∧ f'.form.render n = f.form.render n) ∧
    (f.asField n).line ∈ inst.structCode n ∧ inst.structCode n <:+: file.code n

/-- The line of a table by which the key of a row is found, if there is more than one row. -/
def TableDecl.keyLine (t : TableDecl) (access : String) : String :=
  if t.isIndexed then
    "    " ++ ("    " ++ ("    " ++ ("data_map.insert((" ++ access ++ ").clone(), idx);")))
  else
    "    " ++ ("    " ++ ("self.data_list.iter().find(|row| " ++ access ++ " == key)"))

/-- A table finds the key of a row by the method for a field of the row type. -/
structure TableDecl.FindsKeyBy (n : Names) (table : TableDecl) (decl : BeanDecl) (f : FieldDecl) :
    Prop where
  rows : table.rowIdent = decl.kindIdent
  key : ∃ key, table.key = some key ∧ key.access = "row." ++ f.accessor ++ "()" ∧
    key.form.render n = f.form.render n
  called : table.mode ≠ .one → table.keyLine ("row." ++ f.accessor ++ "()") ∈ table.code n

/-- What makes the methods of a file well typed: the fields of a bean begin those of each bean below
it, so each field of a bean is held by all its variants, and the method that gives it stands in the
file if there are any. The key of a table with rows of a bean with children is found by the method
of a field; this method is written exactly when the rows have an instance. -/
structure AccessorsTyped (g : TypeGraph) (ctx : Context) (n : Names) (file : ManagerFile) :
    Prop where
  inherited : ∀ a c, g.types.Below a c → g.types.hierarchyFields a <+: g.types.hierarchyFields c
  fields : ∀ decl ∈ file.beans, ∀ f ∈ decl.fields, ∀ v ∈ decl.variants, f.HeldBy n file v
  methods : ∀ decl ∈ file.beans, ∀ f ∈ decl.fields, decl.variants ≠ [] →
    Code.indented (decl.accessorCode n f) <:+: file.code n
  keys : ∀ t ∈ ctx.exportTables, ∀ row, g.types.bean? t.valueType = some row →
    n.hasKinds row = true → ∀ field, g.types.keyField? t = some field →
      ∃ table ∈ file.tables, n.exportedTable t = .ok table ∧
        ∃ decl ∈ file.beans, decl.fullName = row.fullName ∧
          ∃ f ∈ decl.fields, table.FindsKeyBy n decl f ∧
            (f.asAccessor n ∈ decl.declaredIdents n ↔
              ∃ b, (b = row ∨ g.types.Below row b) ∧ b.isAbstract = false)

section Code
variable {n : Names} {file : ManagerFile} {decl : BeanDecl} {f : FieldDecl}

theorem Code.indented_infix_item {head : String} {body piece : Code} (h : piece <:+: body) :
    Code.indented piece <:+: Code.item head body := by
  have hbody : Code.indented piece <:+: Code.indented body := h.map _
  exact (hbody.trans (List.suffix_cons ..).isInfix).trans (List.prefix_append ..).isInfix

/-- If there are variants, the method that gives a field stands in the file, line by line. -/
theorem BeanDecl.accessor_infix_code (hdecl : decl ∈ file.beans) (hf : f ∈ decl.fields)
    (hvariants : decl.variants ≠ []) :
    Code.indented (decl.accessorCode n f) <:+: file.code n := by
  have hpiece : Code.item ("impl " ++ decl.kindIdent)
      (Code.spaced (decl.fields.map (decl.accessorCode n))) ∈ decl.pieces n := by
    refine List.mem_append_right _ ?_
    rw [if_neg (by simpa using hvariants)]
    exact List.mem_singleton_self _
  exact (Code.indented_infix_item (Code.infix_spaced (List.mem_map_of_mem hf))).trans
    (infix_code hdecl hpiece)

theorem BeanDecl.accessor_mem_declaredIdents_iff (hf : f ∈ decl.fields) :
    f.asAccessor n ∈ decl.declaredIdents n ↔ decl.variants ≠ [] := by
  rw [mem_declaredIdents_iff]
  constructor
  · rintro (⟨_, _, _, h⟩ | ⟨hvariants, _⟩)
    · cases congrArg DeclaredIdent.role h
    · simpa using hvariants
  · exact fun hvariants => .inr ⟨by simpa using hvariants, f, hf, rfl⟩

end Code

section Fields
variable {g : TypeGraph} {ctx : Context} {n : Names} {file : ManagerFile} {b c : BeanDef}

/-- A bean with children has variants just when it has an instance. -/
theorem Names.variants_ne_nil_iff (hn : n.types = g.types) (hb : .bean b ∈ g.types)
    {decl : BeanDecl} (h : n.beanDecl b = .ok decl) : decl.variants ≠ [] ↔
      n.hasKinds b = true ∧ ∃ c, (c = b ∨ g.types.Below b c) ∧ c.isAbstract = false := by
  constructor
  · intro hvariants
    obtain ⟨v, hv⟩ := List.exists_mem_of_ne_nil _ hvariants
    obtain ⟨hkinds, c, hrelated, hconcrete, _⟩ := (mem_variants_iff hn hb h).1 hv
    exact ⟨hkinds, c, hrelated, hconcrete⟩
  · rintro ⟨hkinds, c, hrelated, hconcrete⟩
    exact List.ne_nil_of_mem ((mem_variants_iff hn hb h).2 ⟨hkinds, c, hrelated, hconcrete, rfl⟩)

/-- The declared fields of a bean begin those of each bean that stands below it. -/
theorem Names.fields_prefix (hn : n.types = g.types) {decl inst : BeanDecl}
    (hdecl : n.beanDecl b = .ok decl) (hinst : n.beanDecl c = .ok inst)
    (h : c = b ∨ g.types.Below b c) : decl.fields <+: inst.fields := by
  refine prefix_of_mapM ?_ (beanDecl_eq_ok hdecl).fields (beanDecl_eq_ok hinst).fields
  rw [hn]
  rcases h with rfl | hbelow
  · exact List.prefix_rfl
  · exact g.hierarchyFields_prefix hbelow

theorem heldBy_of_mem_variants (hover : ctx.Over g) (hn : n.types = g.types)
    (hfile : managerFile ctx n = .ok file) {decl : BeanDecl} (hdecl : decl ∈ file.beans)
    {f : FieldDecl} (hf : f ∈ decl.fields) {v : VariantDecl} (hv : v ∈ decl.variants) :
    f.HeldBy n file v := by
  obtain ⟨_, _, hbeans, _⟩ := managerFile_eq_ok hfile
  obtain ⟨b, hb, hdecl⟩ := exists_of_mem_mapM hbeans hdecl
  have hneeded := hover.mem_beans_iff.1 hb
  obtain ⟨_, c, hrelated, hconcrete, rfl⟩ :=
    (Names.mem_variants_iff hn hneeded.mem hdecl).1 hv
  have hc : c ∈ ctx.closure.beans := by
    rcases hrelated with rfl | hbelow
    · exact hb
    · exact hover.mem_beans_iff.2 (hneeded.down hbelow)
  obtain ⟨inst, hmem, hinst⟩ := exists_of_mapM_eq_ok hbeans hc
  have hdescribes := Names.beanDecl_eq_ok hinst
  have habstract : inst.isAbstract = false := hdescribes.isAbstract.trans hconcrete
  have hfield : f ∈ inst.fields := (Names.fields_prefix hn hdecl hinst hrelated).subset hf
  have hline : (f.asField n).line ∈ inst.structCode n :=
    List.mem_append_right _ (Code.mem_item (List.mem_flatMap.2
      ⟨f, hfield, List.mem_append_right _ (List.mem_singleton_self _)⟩) (by simp))
  refine ⟨inst, hmem, hdescribes.fullName, hdescribes.ident, habstract, ⟨f, hfield, rfl, rfl⟩,
    hline, BeanDecl.infix_code hmem ?_⟩
  simp [BeanDecl.pieces, habstract]

end Fields

section Keys
variable {g : TypeGraph} {ctx : Context} {n : Names} {file : ManagerFile} {t : TableDef}
  {row : BeanDef} {field : BeanDef × FieldDef}

/-- A table with a key, and more than one row, finds it in a line of its code. -/
theorem TableDecl.keyLine_mem_code {table : TableDecl} {key : KeyDecl} (hkey : table.key = some key)
    (hmode : table.mode ≠ .one) : table.keyLine key.access ∈ table.code n := by
  have hfn : ∀ fn ∈ [["pub const FILE: &'static str = \"" ++ table.dataFile ++ "\";"], table.loadFn,
      table.listFn] ++ table.rowFns n, ∀ line ∈ fn, line ≠ "" → "    " ++ line ∈ table.code n :=
    fun fn hfn line hline hne =>
      Code.mem_spaced (List.mem_cons_of_mem _ (List.mem_cons_of_mem _ List.mem_cons_self))
        (Code.mem_item (Code.mem_spaced hfn hline) hne)
  rw [keyLine]
  split
  · rename_i hindexed
    have hline : "    " ++ ("data_map.insert((" ++ key.access ++ ").clone(), idx);") ∈
        table.resultCode := by
      rw [resultCode, indexKey?, if_pos hindexed, hkey]
      exact List.mem_append_left _ (List.mem_append_right _
        (Code.mem_item (List.mem_singleton_self _) (by simp)))
    exact hfn table.loadFn (by simp) _
      (Code.mem_item (List.mem_append_right _ hline) (by simp)) (by simp)
  · rename_i hindexed
    have hget : table.getFn n key ∈ table.rowFns n := by
      rw [rowFns, if_neg hmode, hkey]
      exact List.mem_singleton_self _
    refine hfn _ (List.mem_append_right _ hget) _ (Code.mem_item ?_ (by simp)) (by simp)
    rw [if_neg hindexed]
    exact List.mem_singleton_self _

/-- The key of a table with rows of a bean with children is found by a method. -/
theorem Names.keyDecl_eq_ok {key : KeyDecl} (h : n.keyDecl row field = .ok key) :
    TypeForm.ofType n.types field.1 true field.2.type = .ok key.form ∧
      (n.hasKinds row = true → key.access = "row." ++ n.methodIdent field.2.name ++ "()") := by
  obtain ⟨form, hform, h⟩ := bind_eq_ok_iff.1 h
  cases h
  exact ⟨hform, fun hkinds => if_pos hkinds⟩

theorem Names.key_of_exportedTable {table : TableDecl} (h : n.exportedTable t = .ok table)
    (hrow : n.types.bean? t.valueType = some row) (hfield : n.types.keyField? t = some field) :
    table.rowIdent = n.beanIdent row ∧
      ∃ key, table.key = some key ∧ n.keyDecl row field = .ok key := by
  rw [exportedTable, tableDecl, hrow, hfield] at h
  obtain ⟨key?, hmap, h⟩ := bind_eq_ok_iff.1 h
  cases h
  obtain ⟨key, hkey, rfl⟩ := map_eq_ok_iff.1 hmap
  exact ⟨rfl, key, rfl, hkey⟩

/-- This method is the one for a field of the row bean. -/
theorem exists_findsKeyBy (hover : ctx.Over g) (hn : n.types = g.types)
    (hfile : managerFile ctx n = .ok file) (ht : t ∈ ctx.exportTables)
    (hrow : g.types.bean? t.valueType = some row) (hkinds : n.hasKinds row = true)
    (hfield : g.types.keyField? t = some field) :
    ∃ table ∈ file.tables, n.exportedTable t = .ok table ∧
      ∃ decl ∈ file.beans, n.beanDecl row = .ok decl ∧
        ∃ f ∈ decl.fields, table.FindsKeyBy n decl f := by
  obtain ⟨_, _, hbeans, htables⟩ := managerFile_eq_ok hfile
  obtain ⟨table, htable, hexported⟩ := exists_of_mapM_eq_ok htables ht
  obtain ⟨decl, hdecl, hdeclares⟩ :=
    exists_of_mapM_eq_ok hbeans (hover.mem_beans_iff.2 (.row ht hrow))
  have hdescribes := Names.beanDecl_eq_ok hdeclares
  have hown : field ∈ n.types.hierarchyFields row := by
    obtain ⟨_, hrow', hown, _⟩ := g.keyField?_eq_some hfield
    cases hrow.symm.trans hrow'
    exact hn ▸ hown
  obtain ⟨f, hf, hfieldDecl⟩ := exists_of_mapM_eq_ok hdescribes.fields hown
  have hf' := Names.fieldDecl_eq_ok hfieldDecl
  obtain ⟨hident, key, hkey, hkeyDecl⟩ :=
    Names.key_of_exportedTable hexported (hn ▸ hrow) (hn ▸ hfield)
  obtain ⟨hform, haccess⟩ := Names.keyDecl_eq_ok hkeyDecl
  have hform : key.form = f.form := Except.ok.inj (hform.symm.trans hf'.form)
  have haccess : key.access = "row." ++ f.accessor ++ "()" := by rw [haccess hkinds, hf'.accessor]
  refine ⟨table, htable, hexported, decl, hdecl, hdeclares, f, hf, ?_⟩
  refine ⟨hident.trans hdescribes.kindIdent.symm, ⟨key, hkey, haccess, by rw [hform]⟩, ?_⟩
  rw [← haccess]
  exact TableDecl.keyLine_mem_code hkey

end Keys

/-- In the code generated for an accepted graph, in whatever style, all variants of a bean with
children have its fields, under the identifiers and with the types that the methods give them. The
key of a table with such rows is found by one of these methods, which is written exactly when there
is an instance, that is the row bean or a bean below it that is not abstract. -/
theorem accessors_typed (g : TypeGraph) (ctx : Context) (n : Names) (hover : ctx.Over g)
    (hn : n.types = g.types) : ∃ file, managerFile ctx n = .ok file ∧
      (namesOf ctx = .ok n → managerText ctx = .ok (file.code n).text) ∧
      AccessorsTyped g ctx n file := by
  obtain ⟨file, hfile⟩ :=
    exists_managerFile hn (fun _ => hover.declared_bean) hover.declared_table
  refine ⟨file, hfile, fun hnames => managerText_of_managerFile hnames hfile,
    fun a c => g.hierarchyFields_prefix,
    fun decl hdecl f hf v hv => heldBy_of_mem_variants hover hn hfile hdecl hf hv,
    fun decl hdecl f hf hvariants => BeanDecl.accessor_infix_code hdecl hf hvariants,
    fun t ht row hrow hkinds field hfield => ?_⟩
  obtain ⟨table, htable, hexported, decl, hdecl, hdeclares, f, hf, hfinds⟩ :=
    exists_findsKeyBy hover hn hfile ht hrow hkinds hfield
  refine ⟨table, htable, hexported, decl, hdecl, (Names.beanDecl_eq_ok hdeclares).fullName, f, hf,
    hfinds, ?_⟩
  rw [BeanDecl.accessor_mem_declaredIdents_iff hf,
    Names.variants_ne_nil_iff hn (g.bean?_eq_some_iff.1 hrow).1 hdeclares]
  exact and_iff_right hkinds

namespace Fleet

/-- An abstract bean with the field that the table finds its rows by. -/
def vehicle : BeanDef := ⟨"", "Vehicle", none, true, [], [⟨"id", .primitive .int, none⟩], none⟩

/-- Its only child. -/
def wagon (isAbstract : Bool) : BeanDef := ⟨"", "Wagon", some "Vehicle", isAbstract, [], [], none⟩

/-- A table of vehicles. -/
def table : TableDef := ⟨"", "TbVehicle", "Vehicle", some "id", .map, [], none, none⟩

/-- Both beans, and the table. -/
def graph (isAbstract : Bool) : TypeGraph :=
  ⟨[.bean vehicle, .bean (wagon isAbstract), .table table], by cases isAbstract <;> decide⟩

/-- The names of a run over the graph. -/
def names (isAbstract : Bool) : Names := ⟨(graph isAbstract).types, .underscored⟩

/-- If the child is not abstract, the method that the table calls is declared. -/
theorem wagon_accessors : ∃ ctx file, ctx.Over (graph false) ∧
    (names false).types = (graph false).types ∧ managerFile ctx (names false) = .ok file ∧
    AccessorsTyped (graph false) ctx (names false) file ∧
    ∃ decl ∈ file.tables, (names false).exportedTable table = .ok decl ∧
      ∃ bean ∈ file.beans, ∃ f ∈ bean.fields, decl.FindsKeyBy (names false) bean f ∧
        f.asAccessor (names false) ∈ bean.declaredIdents (names false) := by
  obtain ⟨ctx, hover, _, htables, _⟩ :=
    exists_context (graph false) ⟨"client", "Tables", "", []⟩ [table] rfl
  obtain ⟨file, hfile, _, htyped⟩ := accessors_typed (graph false) ctx (names false) hover rfl
  obtain ⟨table, htable, hexported, decl, hdecl, _, f, hf, hfinds, hdeclared⟩ :=
    htyped.keys table (htables ▸ List.mem_singleton_self table) vehicle (by decide) (by decide)
      (vehicle, ⟨"id", .primitive .int, none⟩) (by decide)
  have hbelow : (graph false).types.Below vehicle (wagon false) := .single (by decide)
  exact ⟨ctx, file, hover, rfl, hfile, htyped, table, htable, hexported, decl, hdecl, f, hf, hfinds,
    hdeclared.2 ⟨wagon false, .inr hbelow, rfl⟩⟩

/-- The code of the enum over vehicles, if both beans are abstract. -/
def emptyEnum : Code :=
  ["/// Concrete `Vehicle` values, selected by `$type`.",
    "#[derive(Debug, Clone, PartialEq, Deserialize)]",
    "#[serde(tag = \"$type\")]",
    "pub enum VehicleKind \x7b",
    "\x7d"]

theorem pieces_beans : ∀ b ∈ [vehicle, wagon true], ((names true).beanDecl b).map (fun decl =>
    decide (decl.pieces (names true) ⊆ [emptyEnum] ∧ decl.variants = [])) = .ok true := by
  decide +kernel

/-- How a table of vehicles finds the key of a row, if both beans are abstract. -/
def keyLine : String := "            data_map.insert((row.id()).clone(), idx);"

theorem keyLine_mem_table : ((names true).exportedTable table).map (fun decl =>
    decide (decl.rowIdent = "VehicleKind" ∧ keyLine ∈ decl.code (names true))) = .ok true := by
  decide +kernel

/-- If it is abstract, the table still finds its key by a method of the enum over vehicles, but this
enum is all that the file has for beans: it declares no method. -/
theorem wagon_no_accessors : ∃ ctx files file decl, ctx.Over (graph true) ∧
    namesOf ctx = .ok (names true) ∧ target.run ctx = .ok files ∧
    managerFile ctx (names true) = .ok file ∧ (names true).exportedTable table = .ok decl ∧
    decl.rowIdent = "VehicleKind" ∧ keyLine ∈ decl.code (names true) ∧
    ∀ bean ∈ file.beans, bean.pieces (names true) ⊆ [emptyEnum] ∧
      ∀ f ∈ bean.fields, f.asAccessor (names true) ∉ bean.declaredIdents (names true) := by
  obtain ⟨ctx, files, hover, _, _, hnames, hrun⟩ :=
    exists_run (graph true) ⟨"client", "Tables", "", []⟩ [table] rfl (by decide +kernel)
  obtain ⟨file, hfile⟩ := exists_managerFile (n := names true) rfl
    (fun _ => hover.declared_bean) hover.declared_table
  obtain ⟨decl, _, hdecl, _⟩ :=
    Names.exists_exportedTable (n := names true) (g := graph true) rfl (t := table) (by decide)
  have hkey := keyLine_mem_table
  rw [hdecl] at hkey
  obtain ⟨hrows, hkey⟩ := of_decide_eq_true (Except.ok.inj hkey)
  refine ⟨ctx, files, file, decl, hover, hnames, hrun, hfile, hdecl, hrows, hkey,
    fun bean hbean => ?_⟩
  obtain ⟨_, _, hbeans, _⟩ := managerFile_eq_ok hfile
  obtain ⟨b, hb, hdeclares⟩ := exists_of_mem_mapM hbeans hbean
  have hb : b ∈ [vehicle, wagon true] := by simpa [graph] using hover.declared_bean hb
  have hpieces := pieces_beans b hb
  rw [hdeclares] at hpieces
  obtain ⟨hpieces, hvariants⟩ := of_decide_eq_true (Except.ok.inj hpieces)
  refine ⟨hpieces, fun f hf => ?_⟩
  rw [BeanDecl.accessor_mem_declaredIdents_iff hf]
  exact not_not.2 hvariants

end Fleet

end ConfigTables.Wrapper
