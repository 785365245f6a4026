import ConfigTables.Proofs.Emit.Context
import ConfigTables.Proofs.Emit.Wrapper.Declared
import Mathlib.Data.List.Infix

/-!
    Which of the bean types that generated code uses it also defines. All beans in use are exported,
    so each has its turn in the file about all tables. Whether a type is called after the bean or
    after its kinds rests on its children alone, while a struct is only written for a bean that is not
    abstract. So there is one gap, the abstract bean without children: its values have the type of a
    struct that is missing. -/

namespace ConfigTables.Wrapper

/-! ### Definitions -/

/-- The types that the code of a bean defines, with the code that does. -/
def BeanDecl.definitions (n : Names) (b : BeanDecl) : List (String × Code) :=
  (if b.isAbstract then [] else [(b.ident, b.structCode n)]) ++
    (if b.hasKinds then [(b.kindIdent, b.kindCode)] else [])

/-- The types of enums, beans and the manager that a file defines, with the code that does. -/
def ManagerFile.definitions (n : Names) (m : ManagerFile) : List (String × Code) :=
  m.enums.map (fun e => (e.ident, e.code)) ++ m.beans.flatMap (·.definitions n) ++
    [(m.ident, m.structCode)]

theorem Code.infix_spaced {pieces : List Code} {piece : Code} (h : piece ∈ pieces) :
    piece <:+: Code.spaced pieces := by
  induction pieces with
  | nil => cases h
  | cons first rest ih =>
    cases rest with
    | nil =>
      rw [List.mem_singleton.1 h, Code.spaced, List.intercalate_singleton]
    | cons next rest =>
      rw [Code.spaced, List.intercalate_cons_cons]
      rcases List.mem_cons.1 h with rfl | h
      · rw [List.append_assoc]
        exact (List.prefix_append ..).isInfix
      · exact (ih h).trans (List.suffix_append ..).isInfix

theorem BeanDecl.mem_definitions_iff {n : Names} {b : BeanDecl} {ident : String} {code : Code} :
    (ident, code) ∈ b.definitions n ↔
      (b.isAbstract = false ∧ ident = b.ident ∧ code = b.structCode n) ∨
        (b.hasKinds = true ∧ ident = b.kindIdent ∧ code = b.kindCode) := by
  cases habstract : b.isAbstract <;> cases hkinds : b.hasKinds <;>
    simp [definitions, habstract, hkinds]

theorem BeanDecl.code_mem_pieces {n : Names} {b : BeanDecl} {ident : String} {code : Code}
    (h : (ident, code) ∈ b.definitions n) : code ∈ b.pieces n := by
  refine List.mem_append_left _ ?_
  rcases mem_definitions_iff.1 h with ⟨hconcrete, _, rfl⟩ | ⟨hkinds, _, rfl⟩
  · simp [hconcrete]
  · simp [hkinds]

/-- The code of a bean stands in the file, piece by piece. -/
theorem BeanDecl.infix_code {n : Names} {m : ManagerFile} {b : BeanDecl} {piece : Code}
    (hb : b ∈ m.beans) (h : piece ∈ b.pieces n) : piece <:+: m.code n := by
  refine (Code.infix_spaced ?_).trans (List.suffix_append ..).isInfix
  exact List.mem_append_left _ (List.mem_append_right _ (List.mem_flatMap.2 ⟨b, hb, h⟩))

theorem ManagerFile.mem_definitions_of_bean {n : Names} {m : ManagerFile} {b : BeanDecl}
    {definition : String × Code} (hb : b ∈ m.beans) (h : definition ∈ b.definitions n) :
    definition ∈ m.definitions n :=
  List.mem_append_left _ (List.mem_append_right _ (List.mem_flatMap.2 ⟨b, hb, h⟩))

/-- What defines a type stands in the file, line by line. -/
theorem ManagerFile.infix_code {n : Names} {m : ManagerFile} {ident : String} {code : Code}
    (h : (ident, code) ∈ m.definitions n) : code <:+: m.code n := by
  refine (Code.infix_spaced ?_).trans (List.suffix_append ..).isInfix
  simp only [definitions, List.mem_append, List.mem_map, List.mem_flatMap, List.mem_singleton,
    Prod.mk.injEq] at h ⊢
  rcases h with (⟨e, he, _, rfl⟩ | ⟨b, hb, h⟩) | ⟨_, rfl⟩
  · exact .inl (.inl (.inr ⟨e, he, rfl⟩))
  · exact .inl (.inr ⟨b, hb, b.code_mem_pieces h⟩)
  · exact .inr List.mem_cons_self

/-- A file defines a type for a bean, among the types of that bean, and the code stands in it. -/
def Defines (n : Names) (file : ManagerFile) (b : BeanDef) (ident : String) : Prop :=
  ∃ decl ∈ file.beans, decl.fullName = b.fullName ∧
    ∃ code, (ident, code) ∈ decl.definitions n ∧ code <:+: file.code n

/-! ### Uses -/

/-- The beans whose types stand in a form. -/
def TypeForm.beans : TypeForm → List BeanDef
  | bean b | boxed b => [b]
  | vector element => element.beans
  | pairs key value => key.beans ++ value.beans
  | option inner => inner.beans
  | _ => []

/-- Where generated code uses a type for a bean: in the field of a struct, for the rows of a table,
and for what a variant of an enum over instances holds. -/
inductive Uses (ctx : Context) (n : Names) (file : ManagerFile) : BeanDef → String → Prop
  | field {decl : BeanDecl} {f : FieldDecl} {b : BeanDef} : decl ∈ file.beans →
      f ∈ decl.fields → b ∈ f.form.beans → Uses ctx n file b (n.beanIdent b)
  | row {t : TableDef} {decl : TableDecl} {b : BeanDef} : t ∈ ctx.exportTables →
      n.exportedTable t = .ok decl → n.types.bean? t.valueType = some b →
      Uses ctx n file b decl.rowIdent
  | payload {decl : BeanDecl} {v : VariantDecl} {b : BeanDef} : decl ∈ file.beans →
      v ∈ decl.variants → n.types.bean? v.tag = some b → Uses ctx n file b v.ident

/-- The beans in the form of a type are what the type mentions. -/
theorem TypeForm.fieldRef?_of_mem_beans {ds : Declarations} {scope b : BeanDef} {type : TypeExpr}
    {box : Bool} {form : TypeForm} (h : ofType ds scope box type = .ok form) (hb : b ∈ form.beans) :
    ∃ name ∈ type.names, ds.fieldRef? scope name = some (.bean b) := by
  induction type generalizing box form with
  | primitive p => cases h; cases p <;> cases hb
  | named name =>
    refine ⟨name, by simp [TypeExpr.names], ?_⟩
    rw [ofType] at h
    split at h
    · cases h
      cases hb
    · rename_i c href
      cases h
      rw [href]
      cases box <;> rw [List.mem_singleton.1 hb]
    · cases h
  | sequence kind element ih =>
    obtain ⟨inner, hinner, h⟩ := bind_eq_ok_iff.1 h
    cases h
    exact ih hinner hb
  | map key value ihKey ihValue =>
    obtain ⟨k, hk, h⟩ := bind_eq_ok_iff.1 h
    obtain ⟨v, hv, h⟩ := bind_eq_ok_iff.1 h
    cases h
    rw [TypeExpr.names]
    rcases List.mem_append.1 hb with hb | hb
    · obtain ⟨name, hname, href⟩ := ihKey hk hb
      exact ⟨name, List.mem_append_left _ hname, href⟩
    · obtain ⟨name, hname, href⟩ := ihValue hv hb
      exact ⟨name, List.mem_append_right _ hname, href⟩
  | nullable inner ih =>
    obtain ⟨form, hform, h⟩ := bind_eq_ok_iff.1 h
    cases h
    exact ih hform hb

section
variable {g : TypeGraph} {ctx : Context} {n : Names} {file : ManagerFile} {b : BeanDef}
  {ident : String}

/-- What a variant holds is the struct of an exported bean that is not abstract. -/
theorem exists_payload (hover : ctx.Over g) (hn : n.types = g.types)
    (hfile : managerFile ctx n = .ok file) {decl : BeanDecl} (hdecl : decl ∈ file.beans)
    {v : VariantDecl} (hv : v ∈ decl.variants) : ∃ c ∈ ctx.closure.beans,
      n.types.bean? v.tag = some c ∧ v.ident = n.structIdent c ∧ c.isAbstract = false := by
  obtain ⟨_, _, hbeans, _⟩ := managerFile_eq_ok hfile
  obtain ⟨d, hd, hdecl⟩ := exists_of_mem_mapM hbeans hdecl
  have hd := hover.mem_beans_iff.1 hd
  obtain ⟨_, c, hrelated, hconcrete, rfl⟩ := (Names.mem_variants_iff hn hd.mem hdecl).1 hv
  have hneeded : g.types.Needed ctx.exportTables ctx.target.groups (.bean c) := by
    rcases hrelated with rfl | hbelow
    · exact hd
    · exact hd.down hbelow
  exact ⟨c, hover.mem_beans_iff.2 hneeded, hn ▸ g.bean?_eq_some_iff.2 ⟨hneeded.mem, rfl⟩, rfl,
    hconcrete⟩

/-- A bean in use is exported. Its type is called after its kinds, or it is that of a struct. -/
theorem Uses.exported (hover : ctx.Over g) (hn : n.types = g.types)
    (hfile : managerFile ctx n = .ok file) (h : Uses ctx n file b ident) :
    b ∈ ctx.closure.beans ∧
      (ident = n.beanIdent b ∨ ident = n.structIdent b ∧ b.isAbstract = false) := by
  obtain ⟨_, _, hbeans, _⟩ := managerFile_eq_ok hfile
  cases h with
  | field hdecl hf hb =>
    obtain ⟨d, hd, hdecl⟩ := exists_of_mem_mapM hbeans hdecl
    obtain ⟨field, hfield, hf⟩ := exists_of_mem_mapM (Names.beanDecl_eq_ok hdecl).fields hf
    have hform := (Names.fieldDecl_eq_ok hf).form
    obtain ⟨name, hname, href⟩ := TypeForm.fieldRef?_of_mem_beans hform hb
    rw [hn] at hfield href
    exact ⟨hover.mem_beans_iff.2 ((hover.mem_beans_iff.1 hd).fieldRef hfield hname href), .inl rfl⟩
  | row ht hdecl hb =>
    rw [hn] at hb
    obtain ⟨decl, row, hdecl', hrow, hident⟩ :=
      Names.exists_exportedTable hn (hover.declared_table _ ht)
    cases hdecl.symm.trans hdecl'
    cases hb.symm.trans hrow
    exact ⟨hover.mem_beans_iff.2 (.row ht hrow), .inl hident⟩
  | payload hdecl hv hb =>
    obtain ⟨c, hc, hc', hident, hconcrete⟩ := exists_payload hover hn hfile hdecl hv
    cases hb.symm.trans hc'
    exact ⟨hc, .inr ⟨hident, hconcrete⟩⟩

/-- The types that are defined for an exported bean. -/
theorem defines_iff (hover : ctx.Over g) (hfile : managerFile ctx n = .ok file)
    (hb : b ∈ ctx.closure.beans) : Defines n file b ident ↔
      (b.isAbstract = false ∧ ident = n.structIdent b) ∨
        (n.hasKinds b = true ∧ ident = n.beanIdent b) := by
  obtain ⟨_, _, hbeans, _⟩ := managerFile_eq_ok hfile
  constructor
  · rintro ⟨decl, hdecl, hname, code, hmem, _⟩
    obtain ⟨d, hd, hdecl⟩ := exists_of_mem_mapM hbeans hdecl
    have hdescribes := Names.beanDecl_eq_ok hdecl
    -- full names are different, so a declaration with the name of the bean is that of the bean
    cases g.eq_of_fullName_eq (hover.declared_bean hd) (hover.declared_bean hb)
      (hdescribes.fullName.symm.trans hname)
    rw [← hdescribes.isAbstract, ← hdescribes.ident, ← hdescribes.hasKinds, ← hdescribes.kindIdent]
    exact (BeanDecl.mem_definitions_iff.1 hmem).imp (fun h => ⟨h.1, h.2.1⟩) fun h => ⟨h.1, h.2.1⟩
  · obtain ⟨decl, hmem, hdecl⟩ := exists_of_mapM_eq_ok hbeans hb
    have hdescribes := Names.beanDecl_eq_ok hdecl
    rw [← hdescribes.isAbstract, ← hdescribes.ident, ← hdescribes.hasKinds, ← hdescribes.kindIdent]
    intro h
    have hdef : ∃ code, (ident, code) ∈ decl.definitions n := by
      rcases h with ⟨hconcrete, hident⟩ | ⟨hkinds, hident⟩
      · exact ⟨_, BeanDecl.mem_definitions_iff.2 (.inl ⟨hconcrete, hident, rfl⟩)⟩
      · exact ⟨_, BeanDecl.mem_definitions_iff.2 (.inr ⟨hkinds, hident, rfl⟩)⟩
    obtain ⟨code, hcode⟩ := hdef
    exact ⟨decl, hmem, hdescribes.fullName, code, hcode,
      file.infix_code (file.mem_definitions_of_bean hmem hcode)⟩

end

/-- All beans that generated code uses a type for are exported, and the type is defined for the bean,
unless that is abstract and has no children. What a variant holds is always defined. -/
theorem used_types_defined_iff (g : TypeGraph) (ctx : Context) (n : Names) (hover : ctx.Over g)
    (hnames : namesOf ctx = .ok n) : ∃ file, managerFile ctx n = .ok file ∧
      managerText ctx = .ok (file.code n).text ∧
      (∀ b ident, Uses ctx n file b ident → ctx.closure.get? b.fullName = some (.bean b) ∧
        (Defines n file b ident ↔
          (b.isAbstract = true → g.types.children b.fullName ≠ []))) ∧
      ∀ decl ∈ file.beans, ∀ v ∈ decl.variants,
        ∃ b, n.types.bean? v.tag = some b ∧ Defines n file b v.ident := by
  have hn : n.types = g.types := hover.fixed.1 ▸ (namesOf_eq_ok_iff.1 hnames).2
  obtain ⟨file, hfile⟩ :=
    exists_managerFile hn (fun _ => hover.declared_bean) hover.declared_table
  refine ⟨file, hfile, managerText_of_managerFile hnames hfile, fun b ident huses => ?_,
    fun decl hdecl v hv => ?_⟩
  · obtain ⟨hb, hident⟩ := huses.exported hover hn hfile
    refine ⟨hover.get?_of_mem_beans hb, ?_⟩
    have hkinds : n.hasKinds b = true ↔ g.types.children b.fullName ≠ [] := by
      rw [Names.hasKinds, hn]
      simp
    rw [defines_iff hover hfile hb, ← hkinds]
    rcases hident with rfl | ⟨rfl, hconcrete⟩
    · cases hkind : n.hasKinds b <;> simp [Names.beanIdent, hkind]
    · simp [hconcrete]
  · obtain ⟨b, hb, htag, hident, hconcrete⟩ := exists_payload hover hn hfile hdecl hv
    exact ⟨b, htag, (defines_iff hover hfile hb).2 (.inl ⟨hconcrete, hident⟩)⟩

namespace Canvas

/-- An abstract bean without children. -/
def shape : BeanDef := ⟨"", "Shape", none, true, [], [], none⟩

/-- A bean that has a value of it. -/
def canvas : BeanDef :=
  ⟨"", "Canvas", none, false, [], [⟨"shape", .nullable (.named "Shape"), none⟩], none⟩

/-- A table of such beans. -/
def table : TableDef := ⟨"", "TbCanvas", "Canvas", none, .list, [], none, none⟩

/-- Both beans, and the table. -/
def graph : TypeGraph := ⟨[.bean shape, .bean canvas, .table table], by decide⟩

/-- The names of a run over the graph. -/
def names : Names := ⟨graph.types, .underscored⟩

/-- The row type of the table is defined. -/
theorem canvas_defined : ∃ ctx file, ctx.Over graph ∧ namesOf ctx = .ok names ∧
    managerFile ctx names = .ok file ∧ Uses ctx names file canvas "Canvas" ∧
    Defines names file canvas "Canvas" := by
  obtain ⟨ctx, hover, _, htables, hnames⟩ :=
    exists_context graph ⟨"client", "Tables", "", []⟩ [table] rfl
  obtain ⟨file, hfile, _, hdefined, _⟩ := used_types_defined_iff graph ctx names hover hnames
  have htable : table ∈ ctx.exportTables := htables ▸ List.mem_singleton_self table
  obtain ⟨decl, row, hdecl, hrow, hident⟩ :=
    Names.exists_exportedTable (n := names) (g := graph) rfl (t := table) (by decide)
  have hcanvas : graph.types.bean? table.valueType = some canvas := by decide
  cases hrow.symm.trans hcanvas
  have hname : names.beanIdent canvas = "Canvas" := by decide +kernel
  have huses : Uses ctx names file canvas "Canvas" := hname ▸ hident ▸ .row htable hdecl hcanvas
  exact ⟨ctx, file, hover, hnames, hfile, huses,
    (hdefined canvas "Canvas" huses).2.2 (by decide)⟩

/-- The type of the field is used, but nothing defines it. -/
theorem shape_undefined : ∃ ctx file, ctx.Over graph ∧ namesOf ctx = .ok names ∧
    managerFile ctx names = .ok file ∧ Uses ctx names file shape "Shape" ∧
    ¬Defines names file shape "Shape" := by
  obtain ⟨ctx, hover, _, htables, hnames⟩ :=
    exists_context graph ⟨"client", "Tables", "", []⟩ [table] rfl
  obtain ⟨file, hfile⟩ :=
    exists_managerFile (n := names) rfl (fun _ => hover.declared_bean) hover.declared_table
  have hcanvas : canvas ∈ ctx.closure.beans :=
    hover.mem_beans_iff.2 (.row (t := table) (htables ▸ List.mem_singleton_self table) (by decide))
  obtain ⟨_, _, hbeans, _⟩ := managerFile_eq_ok hfile
  obtain ⟨decl, hmem, hdecl⟩ := exists_of_mapM_eq_ok hbeans hcanvas
  obtain ⟨f, hf, hfield⟩ := exists_of_mapM_eq_ok (Names.beanDecl_eq_ok hdecl).fields
    (a := (canvas, ⟨"shape", .nullable (.named "Shape"), none⟩)) (by decide)
  have hform : .option (.boxed shape) = f.form :=
    Except.ok.inj (Names.fieldDecl_eq_ok hfield).form
  have hname : names.beanIdent shape = "Shape" := by decide +kernel
  have huses : Uses ctx names file shape "Shape" :=
    hname ▸ .field hmem hf (hform ▸ List.mem_singleton_self shape)
  obtain ⟨hshape, _⟩ := huses.exported hover rfl hfile
  refine ⟨ctx, file, hover, hnames, hfile, huses, fun hdefines => ?_⟩
  rcases (defines_iff hover hfile hshape).1 hdefines with ⟨hconcrete, _⟩ | ⟨hkinds, _⟩
  · exact absurd hconcrete (by decide)
  · exact absurd hkinds (by decide)

end Canvas

end ConfigTables.Wrapper
