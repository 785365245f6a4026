import ConfigTables.Emit.Wrapper.Target
import ConfigTables.Proofs.Emit.Context
import ConfigTables.Proofs.Emit.Run
import ConfigTables.Proofs.Result
import ConfigTables.Proofs.Schema.Hierarchy

/-!
    The declarations that generated code consists of exist for everything in an accepted graph: a
    type of a field mentions enums and beans only, so each has a form, and with the forms of its
    fields a bean, and with that of its key a table, is declared. So a run over the graph succeeds
    when the paths of its files are different. -/

namespace ConfigTables.Wrapper

theorem TypeForm.exists_ofType {ds : Declarations} {scope : BeanDef} {type : TypeExpr}
    (h : ∀ name ∈ type.names, ds.isValueType scope name) (box : Bool) :
    ∃ form, ofType ds scope box type = .ok form := by
  induction type generalizing box with
  | primitive p => exact ⟨_, rfl⟩
  | named name =>
    have hname := h name (by simp [TypeExpr.names])
    rw [Declarations.isValueType] at hname
    rw [ofType]
    cases href : ds.fieldRef? scope name with
    | none => simp [href] at hname
    | some d =>
      cases d with
      | enum e => exact ⟨.enum e, rfl⟩
      | bean b => exact ⟨_, rfl⟩
      | table t => simp [href] at hname
  | sequence kind element ih =>
    obtain ⟨form, hform⟩ := ih h false
    exact ⟨.vector form, bind_eq_ok_iff.2 ⟨form, hform, rfl⟩⟩
  | map key value ihKey ihValue =>
    obtain ⟨k, hk⟩ := ihKey (fun name hname => h name (List.mem_append_left _ hname)) false
    obtain ⟨v, hv⟩ := ihValue (fun name hname => h name (List.mem_append_right _ hname)) false
    exact ⟨.pairs k v, bind_eq_ok_iff.2 ⟨k, hk, bind_eq_ok_iff.2 ⟨v, hv, rfl⟩⟩⟩
  | nullable inner ih =>
    obtain ⟨form, hform⟩ := ih h box
    exact ⟨.option form, bind_eq_ok_iff.2 ⟨form, hform, rfl⟩⟩

/-- What the declaration of a field says. -/
structure FieldDecl.Describes (n : Names) (f : BeanDef × FieldDef) (decl : FieldDecl) : Prop where
  ident : decl.ident = n.fieldIdent f.2.name
  accessor : decl.accessor = n.methodIdent f.2.name
  member : decl.member = f.2.name
  form : TypeForm.ofType n.types f.1 true f.2.type = .ok decl.form

/-- What the declaration of a bean says. -/
structure BeanDecl.Describes (n : Names) (b : BeanDef) (decl : BeanDecl) : Prop where
  fullName : decl.fullName = b.fullName
  ident : decl.ident = n.structIdent b
  kindIdent : decl.kindIdent = n.beanIdent b
  isAbstract : decl.isAbstract = b.isAbstract
  hasKinds : decl.hasKinds = n.hasKinds b
  fields : (n.types.hierarchyFields b).mapM n.fieldDecl = .ok decl.fields
  variants : decl.variants =
    if n.hasKinds b then (n.instances b).map fun c => ⟨n.structIdent c, c.fullName⟩ else []

/-- What the declaration of a table says. -/
structure TableDecl.Describes (n : Names) (t : TableDef) (decl : TableDecl) : Prop where
  fullName : decl.fullName = t.fullName
  ident : decl.ident = n.typeIdent t.fullName
  module : decl.module = Names.moduleIdent t.fullName
  member : decl.member = n.memberIdent t.fullName
  file : decl.file = tableFile t
  dataFile : decl.dataFile = DataTarget.tableFile t

namespace Names
variable {g : TypeGraph} {n : Names} {b : BeanDef}

theorem fieldDecl_eq_ok {f : BeanDef × FieldDef} {decl : FieldDecl} (h : n.fieldDecl f = .ok decl) :
    decl.Describes n f := by
  obtain ⟨form, hform, h⟩ := bind_eq_ok_iff.1 h
  cases h
  exact ⟨rfl, rfl, rfl, hform⟩

theorem beanDecl_eq_ok {decl : BeanDecl} (h : n.beanDecl b = .ok decl) : decl.Describes n b := by
  obtain ⟨fields, hfields, h⟩ := bind_eq_ok_iff.1 h
  cases h
  exact ⟨rfl, rfl, rfl, rfl, rfl, hfields, rfl⟩

/-- The declaration of a table has the paths of the run. -/
theorem exportedTable_eq_ok {t : TableDef} {decl : TableDecl} (h : n.exportedTable t = .ok decl) :
    decl.Describes n t := by
  unfold exportedTable tableDecl at h
  split at h
  · cases h
  · obtain ⟨key, _, h⟩ := bind_eq_ok_iff.1 h
    cases h
    exact ⟨rfl, rfl, rfl, rfl, rfl, rfl⟩

theorem exists_beanDecl (hn : n.types = g.types) (hb : .bean b ∈ g.types) :
    ∃ decl, n.beanDecl b = .ok decl := by
  have hfields : ∃ fields, n.fieldDecls b = .ok fields := by
    refine exists_mapM fun f hf => ?_
    rw [hn] at hf
    obtain ⟨form, hform⟩ := TypeForm.exists_ofType ((g.fields_checked hb).2 f hf) true
    exact ⟨_, bind_eq_ok_iff.2 ⟨form, hn ▸ hform, rfl⟩⟩
  obtain ⟨fields, hfields⟩ := hfields
  exact ⟨_, bind_eq_ok_iff.2 ⟨fields, hfields, rfl⟩⟩

/-- A declared table has a type, whose rows are of the type of its row bean. -/
theorem exists_exportedTable {t : TableDef} (hn : n.types = g.types) (ht : .table t ∈ g.types) :
    ∃ decl row, n.exportedTable t = .ok decl ∧ g.types.bean? t.valueType = some row ∧
      decl.rowIdent = n.beanIdent row := by
  obtain ⟨row, hrow⟩ := g.exists_row ht
  have hkey : ∃ key, (n.types.keyField? t).mapM (n.keyDecl row) = .ok key := by
    cases hfield : n.types.keyField? t with
    | none => exact ⟨none, rfl⟩
    | some f =>
      obtain ⟨row', hrow', hmem, _⟩ := g.keyField?_eq_some (hn ▸ hfield)
      cases hrow.symm.trans hrow'
      obtain ⟨form, hform⟩ := TypeForm.exists_ofType
        ((g.fields_checked (g.bean?_eq_some_iff.1 hrow).1).2 f hmem) true
      have hdecl : ∃ decl, n.keyDecl row f = .ok decl :=
        ⟨_, bind_eq_ok_iff.2 ⟨form, hn ▸ hform, rfl⟩⟩
      obtain ⟨decl, hdecl⟩ := hdecl
      exact ⟨some decl, bind_eq_ok_iff.2 ⟨decl, hdecl, rfl⟩⟩
  obtain ⟨key, hkey⟩ := hkey
  have htable : ∃ decl, n.exportedTable t = .ok decl ∧ decl.rowIdent = n.beanIdent row := by
    rw [exportedTable, tableDecl, hn, hrow]
    exact ⟨_, bind_eq_ok_iff.2 ⟨key, hn ▸ hkey, rfl⟩, rfl⟩
  obtain ⟨decl, hdecl, hident⟩ := htable
  exact ⟨decl, row, hdecl, hrow, hident⟩

theorem hasKinds_iff (hn : n.types = g.types) (hb : .bean b ∈ g.types) :
    n.hasKinds b = true ↔ ∃ c, g.types.Below b c := by
  rw [g.exists_below_iff_children hb, hasKinds, hn]
  simp

/-- The variants of a bean with children: its instances, the bean itself and those below it that are
not abstract. -/
theorem mem_variants_iff (hn : n.types = g.types) (hb : .bean b ∈ g.types) {decl : BeanDecl}
    (h : n.beanDecl b = .ok decl) {v : VariantDecl} : v ∈ decl.variants ↔ n.hasKinds b = true ∧
      ∃ c, (c = b ∨ g.types.Below b c) ∧ c.isAbstract = false ∧
        v = ⟨n.structIdent c, c.fullName⟩ := by
  rw [(beanDecl_eq_ok h).variants]
  cases n.hasKinds b with
  | false => simp
  | true =>
    simp only [if_true, true_and, instances, hn, List.mem_map, List.mem_filter, List.mem_cons,
      g.mem_descendants_iff hb, Bool.not_eq_true', and_assoc, eq_comm (b := v)]

end Names

section File
variable {g : TypeGraph} {ctx : Context} {n : Names} {file : ManagerFile}

/-- A run makes its identifiers from the declarations of its graph, in the style it finds. -/
theorem namesOf_eq_ok_iff : namesOf ctx = .ok n ↔
    ctx.codeStyle targetName "rust-default" = .ok n.style ∧ n.types = ctx.graph.types := by
  rw [namesOf, bind_eq_ok_iff]
  constructor
  · rintro ⟨style, hstyle, h⟩
    cases h
    exact ⟨hstyle, rfl⟩
  · rintro ⟨hstyle, htypes⟩
    obtain ⟨types, style⟩ := n
    cases htypes
    exact ⟨style, hstyle, rfl⟩

theorem managerFile_eq_ok (h : managerFile ctx n = .ok file) :
    file.ident = n.typeIdent ctx.target.manager ∧ file.enums = ctx.closure.enums.map n.enumDecl ∧
      ctx.closure.beans.mapM n.beanDecl = .ok file.beans ∧
      ctx.exportTables.mapM n.exportedTable = .ok file.tables := by
  obtain ⟨beans, hbeans, h⟩ := bind_eq_ok_iff.1 h
  obtain ⟨tables, htables, h⟩ := bind_eq_ok_iff.1 h
  cases h
  exact ⟨rfl, rfl, hbeans, htables⟩

/-- The file with all declarations comes about when what is exported is declared. -/
theorem exists_managerFile (hn : n.types = g.types)
    (hbeans : ∀ b ∈ ctx.closure.beans, .bean b ∈ g.types)
    (htables : ∀ t ∈ ctx.exportTables, .table t ∈ g.types) :
    ∃ file, managerFile ctx n = .ok file := by
  obtain ⟨beans, hbeans⟩ := exists_mapM fun b hb => Names.exists_beanDecl hn (hbeans b hb)
  obtain ⟨tables, htables⟩ := exists_mapM fun t ht => by
    obtain ⟨decl, _, hdecl, _⟩ := Names.exists_exportedTable hn (htables t ht)
    exact ⟨decl, hdecl⟩
  exact ⟨_, bind_eq_ok_iff.2 ⟨beans, hbeans, bind_eq_ok_iff.2 ⟨tables, htables, rfl⟩⟩⟩

/-- Its text is that of the code it declares. -/
theorem managerText_of_managerFile (hnames : namesOf ctx = .ok n)
    (hfile : managerFile ctx n = .ok file) : managerText ctx = .ok (file.code n).text :=
  bind_eq_ok_iff.2 ⟨n, hnames, bind_eq_ok_iff.2 ⟨file, mapError_eq_ok_iff.2 hfile, rfl⟩⟩

theorem manifestBody_of_managerFile (hnames : namesOf ctx = .ok n)
    (hfile : managerFile ctx n = .ok file) :
    target.manifestBody ctx = .text (file.code n).text := by
  simp only [target, managerText_of_managerFile hnames hfile]
  rfl

/-- The file about all tables is the code it declares, at its path. -/
theorem manager_of_gives {f : OutputFile} (h : target.Gives ctx .manifest f) :
    ∃ n file, namesOf ctx = .ok n ∧ managerFile ctx n = .ok file ∧
      f = ⟨target.manifestFile ctx, target.header ++ (file.code n).text⟩ := by
  obtain ⟨body, hbody, rfl⟩ := h
  obtain ⟨n, hnames, htext⟩ := bind_eq_ok_iff.1 (Target.ofExcept_eq_text hbody)
  obtain ⟨file, hfile, htext⟩ := bind_eq_ok_iff.1 htext
  cases htext
  exact ⟨n, file, hnames, mapError_eq_ok_iff.1 hfile, rfl⟩

theorem path_of_gives {t : TableDef} {f : OutputFile} (h : target.Gives ctx (.table t) f) :
    f.path = tableFile t := by
  obtain ⟨_, _, rfl⟩ := h
  rfl

theorem tableBody_of_exportedTable {t : TableDef} {decl : TableDecl} (hnames : namesOf ctx = .ok n)
    (hdecl : n.exportedTable t = .ok decl) :
    target.tableBody ctx t = .text (decl.code n).text := by
  have htext : tableText ctx t = .ok (decl.code n).text :=
    bind_eq_ok_iff.2 ⟨n, hnames, bind_eq_ok_iff.2 ⟨decl, mapError_eq_ok_iff.2 hdecl, rfl⟩⟩
  simp only [target, htext]
  rfl

/-- With identifiers, all units of a run give texts. -/
theorem exists_unitBody (hn : n.types = g.types) (hnames : namesOf ctx = .ok n)
    (hbeans : ∀ b ∈ ctx.closure.beans, .bean b ∈ g.types)
    (htables : ∀ t ∈ ctx.exportTables, .table t ∈ g.types) :
    ∀ u ∈ Target.units ctx, ∃ body, target.unitBody ctx u = .text body := by
  obtain ⟨file, hfile⟩ := exists_managerFile hn hbeans htables
  refine List.forall_mem_cons.2 ⟨⟨_, manifestBody_of_managerFile hnames hfile⟩, ?_⟩
  refine List.forall_mem_map.2 fun t ht => ?_
  obtain ⟨decl, _, hdecl, _⟩ := Names.exists_exportedTable hn (htables t ht)
  exact ⟨_, tableBody_of_exportedTable hnames hdecl⟩

/-- The paths of a run: that of the file about all tables, and those of the tables. -/
theorem map_unitPath (ctx : Context) : (Target.units ctx).map (target.unitPath ctx) =
    target.manifestFile ctx :: ctx.exportTables.map tableFile := by
  rw [Target.units, List.map_cons, List.map_map]
  rfl

/-- With identifiers, a run is complete when the paths of its files are different. -/
theorem complete_of_paths (hn : n.types = g.types) (hnames : namesOf ctx = .ok n)
    (hbeans : ∀ b ∈ ctx.closure.beans, .bean b ∈ g.types)
    (htables : ∀ t ∈ ctx.exportTables, .table t ∈ g.types)
    (hpaths : ((Target.units ctx).map (target.unitPath ctx)).Nodup) : target.Complete ctx where
  files u hu := by
    obtain ⟨body, hbody⟩ := exists_unitBody hn hnames hbeans htables u hu
    exact ⟨_, body, hbody, rfl⟩
  paths := hpaths

/-- There is a context for each output of a graph, with the tables of its groups and the default
style. -/
theorem exists_context (g : TypeGraph) (config : TargetConfig) (tables : List TableDef)
    (htables : g.types.exportTables config.groups = tables) : ∃ ctx : Context, ctx.Over g ∧
      ctx.target = config ∧ ctx.exportTables = tables ∧
      namesOf ctx = .ok ⟨g.types, .underscored⟩ := by
  obtain ⟨closure, hmake⟩ := Context.exists_make g config ⟨[], []⟩ (.ofList [])
  exact ⟨_, .of_make hmake, rfl, htables, namesOf_eq_ok_iff.2 ⟨rfl, rfl⟩⟩

/-- A run in it succeeds when the paths of its files are different. -/
theorem exists_run (g : TypeGraph) (config : TargetConfig) (tables : List TableDef)
    (htables : g.types.exportTables config.groups = tables)
    (hpaths : (target.fileName config.manager :: tables.map tableFile).Nodup) :
    ∃ (ctx : Context) (files : List OutputFile), ctx.Over g ∧ ctx.target = config ∧
      ctx.exportTables = tables ∧ namesOf ctx = .ok ⟨g.types, .underscored⟩ ∧
      target.run ctx = .ok files := by
  obtain ⟨ctx, hover, rfl, htables, hnames⟩ := exists_context g config tables htables
  have hunits : ((Target.units ctx).map (target.unitPath ctx)).Nodup := by
    rw [map_unitPath, htables]
    exact hpaths
  obtain ⟨files, hfiles⟩ := Target.exists_run
    (complete_of_paths rfl hnames (fun _ => hover.declared_bean) hover.declared_table hunits)
  exact ⟨ctx, files, hover, rfl, htables, hnames, hfiles⟩

end File

end ConfigTables.Wrapper
