import ConfigTables.Proofs.Emit.Wrapper.Defined
import ConfigTables.Proofs.Emit.Wrapper.Lines
import ConfigTables.Proofs.Emit.Wrapper.Members

/-!
    Keywords among the identifiers of the generated code. Whatever the style, the fields of structs,
    the methods that give them and the fields of the manager are kept clear of keywords. Modules are
    not: they are called after paths, and the path of a table without a namespace may be one word. So
    a keyword is declared just when an exported table is called after it, and as a module only. -/

namespace ConfigTables.Wrapper

/-! ### Declared identifiers -/

/-- What code declares an identifier for. -/
inductive Role where | module | member | field | accessor
  deriving DecidableEq

/-- An identifier that code declares, and the line that does. -/
structure DeclaredIdent where
  role : Role
  ident : String
  line : String

/-- A field of a struct. -/
def FieldDecl.asField (n : Names) (f : FieldDecl) : DeclaredIdent :=
  ⟨.field, f.ident, "    " ++ ("pub " ++ f.ident ++ ": " ++ f.form.render n ++ ",")⟩

/-- The method that gives this field. -/
def FieldDecl.asAccessor (n : Names) (f : FieldDecl) : DeclaredIdent :=
  ⟨.accessor, f.accessor,
    "    " ++ ("pub fn " ++ f.accessor ++ "(&self) -> &" ++ f.form.render n ++ " \x7b")⟩

/-- The fields of the struct of a bean, and the methods of the enum over its instances. -/
def BeanDecl.declaredIdents (n : Names) (b : BeanDecl) : List DeclaredIdent :=
  (if b.isAbstract then [] else b.fields.map (·.asField n)) ++
    (if b.variants.isEmpty then [] else b.fields.map (·.asAccessor n))

/-- The module of a table. -/
def TableDecl.asModule (t : TableDecl) : DeclaredIdent :=
  ⟨.module, t.module, "pub mod " ++ t.module ++ ";"⟩

/-- The field of the manager that holds a table. -/
def TableDecl.asMember (t : TableDecl) : DeclaredIdent :=
  ⟨.member, t.member, "    " ++ ("pub " ++ t.member ++ ": " ++ t.path ++ ",")⟩

/-- The modules, the fields of the manager, and what is declared for the beans. -/
def ManagerFile.declaredIdents (n : Names) (m : ManagerFile) : List DeclaredIdent :=
  m.tables.map (·.asModule) ++ m.tables.map (·.asMember) ++ m.beans.flatMap (·.declaredIdents n)

/-- The fields of the struct of a table. -/
def TableDecl.declaredIdents (n : Names) (t : TableDecl) : List DeclaredIdent :=
  ⟨.field, "data_list", "    " ++ ("data_list: " ++ t.rows ++ ",")⟩ ::
    (t.indexKey?.map fun key =>
      ⟨.field, "data_map", "    " ++ ("data_map: " ++ indexType n key ++ ",")⟩).toList

section Membership
variable {n : Names} {d : DeclaredIdent}

theorem BeanDecl.mem_declaredIdents_iff {b : BeanDecl} :
    d ∈ b.declaredIdents n ↔ (b.isAbstract = false ∧ ∃ f ∈ b.fields, f.asField n = d) ∨
      (b.variants.isEmpty = false ∧ ∃ f ∈ b.fields, f.asAccessor n = d) := by
  rw [declaredIdents, List.mem_append]
  cases b.isAbstract <;> cases b.variants.isEmpty <;> simp

theorem ManagerFile.mem_declaredIdents_iff {m : ManagerFile} :
    d ∈ m.declaredIdents n ↔ (∃ t ∈ m.tables, t.asModule = d) ∨
      (∃ t ∈ m.tables, t.asMember = d) ∨ ∃ b ∈ m.beans, d ∈ b.declaredIdents n := by
  rw [declaredIdents, List.mem_append, List.mem_append, List.mem_map, List.mem_map,
    List.mem_flatMap, or_assoc]

theorem TableDecl.mem_declaredIdents_iff {t : TableDecl} :
    d ∈ t.declaredIdents n ↔ d = ⟨.field, "data_list", "    " ++ ("data_list: " ++ t.rows ++ ",")⟩ ∨
      ∃ key, t.indexKey? = some key ∧
        ⟨.field, "data_map", "    " ++ ("data_map: " ++ indexType n key ++ ",")⟩ = d := by
  rw [declaredIdents, List.mem_cons, Option.mem_toList, Option.map_eq_some_iff]

end Membership

/-! ### Lines of declarations -/

section Lines
variable {n : Names} {d : DeclaredIdent} {line head : String} {body piece : Code}
  {pieces : List Code}

theorem Code.mem_spaced (hpiece : piece ∈ pieces) (h : line ∈ piece) : line ∈ Code.spaced pieces :=
  (Code.infix_spaced hpiece).subset h

/-- What stands in the body of an item is indented. -/
theorem Code.mem_item (h : line ∈ body) (hne : line ≠ "") : "    " ++ line ∈ Code.item head body := by
  refine List.mem_append_left _ (List.mem_cons_of_mem _ (List.mem_map.2 ⟨line, h, ?_⟩))
  rw [if_neg hne]

theorem BeanDecl.exists_piece {b : BeanDecl} (hd : d ∈ b.declaredIdents n) :
    ∃ piece ∈ b.pieces n, d.line ∈ piece := by
  rcases mem_declaredIdents_iff.1 hd with ⟨hconcrete, f, hf, rfl⟩ | ⟨hvariants, f, hf, rfl⟩
  · refine ⟨b.structCode n, by simp [pieces, hconcrete], ?_⟩
    refine List.mem_append_right _ (Code.mem_item (List.mem_flatMap.2 ⟨f, hf, ?_⟩) (by simp))
    exact List.mem_append_right _ (List.mem_singleton_self _)
  · refine ⟨_, List.mem_append_right _ (by rw [hvariants]; exact List.mem_cons_self), ?_⟩
    refine Code.mem_item (Code.mem_spaced (List.mem_map_of_mem hf) ?_) (by simp)
    exact List.mem_append_left _ List.mem_cons_self

/-- Each identifier of a file about all tables is declared by a line of it. -/
theorem ManagerFile.line_mem_code {m : ManagerFile} (hd : d ∈ m.declaredIdents n) :
    d.line ∈ m.code n := by
  rcases mem_declaredIdents_iff.1 hd with ⟨t, ht, rfl⟩ | ⟨t, ht, rfl⟩ | ⟨b, hb, hd⟩
  · refine (infix_modules m).subset (List.mem_flatMap.2 ⟨t, ht, ?_⟩)
    exact List.mem_cons_of_mem _ (List.mem_singleton_self _)
  · have hstruct : (m.ident, m.structCode) ∈ m.definitions n :=
      List.mem_append_right _ (List.mem_singleton_self _)
    refine (m.infix_code hstruct).subset (List.mem_append_right _ ?_)
    exact Code.mem_item (List.mem_map.2 ⟨t, ht, rfl⟩) (by simp)
  · obtain ⟨piece, hmem, hline⟩ := b.exists_piece hd
    exact (BeanDecl.infix_code hb hmem).subset hline

/-- Each field of the struct of a table is declared by a line of its file. -/
theorem TableDecl.line_mem_code {t : TableDecl} (hd : d ∈ t.declaredIdents n) :
    d.line ∈ t.code n := by
  have hbody : ∀ line ∈ ("data_list: " ++ t.rows ++ ",") ::
      (t.indexKey?.map fun key => "data_map: " ++ indexType n key ++ ",").toList,
      line ≠ "" → "    " ++ line ∈ t.code n := fun line hline hne =>
    Code.mem_spaced (List.mem_cons_of_mem _ List.mem_cons_self)
      (List.mem_append_right _ (Code.mem_item hline hne))
  rcases mem_declaredIdents_iff.1 hd with rfl | ⟨key, hkey, rfl⟩
  · exact hbody _ List.mem_cons_self (by simp)
  · refine hbody _ (List.mem_cons_of_mem _ ?_) (by simp)
    rw [hkey]
    exact List.mem_singleton_self _

end Lines

/-! ### Keywords -/

/-- With the underscore behind it, a keyword is none any more. -/
theorem clearOfKeywords_not_mem (ident : String) : clearOfKeywords ident ∉ keywords := by
  unfold clearOfKeywords
  split
  · exact fun hword => underscore_not_mem_keyword _ hword (by simp)
  · assumption

section Keywords
variable {ctx : Context} {n : Names} {file : ManagerFile} {d : DeclaredIdent}

theorem BeanDecl.ident_not_mem {b : BeanDef} {decl : BeanDecl} (h : n.beanDecl b = .ok decl)
    (hd : d ∈ decl.declaredIdents n) : d.role ≠ .module ∧ d.ident ∉ keywords := by
  have hfield : ∀ f ∈ decl.fields, f.ident ∉ keywords ∧ f.accessor ∉ keywords := by
    intro f hf
    obtain ⟨field, _, hfield⟩ := exists_of_mem_mapM (Names.beanDecl_eq_ok h).fields hf
    have hdescribes := Names.fieldDecl_eq_ok hfield
    rw [hdescribes.ident, hdescribes.accessor]
    exact ⟨clearOfKeywords_not_mem _, clearOfKeywords_not_mem _⟩
  rcases mem_declaredIdents_iff.1 hd with ⟨_, f, hf, rfl⟩ | ⟨_, f, hf, rfl⟩
  · exact ⟨by simp [FieldDecl.asField], (hfield f hf).1⟩
  · exact ⟨by simp [FieldDecl.asAccessor], (hfield f hf).2⟩

theorem TableDecl.ident_not_mem {t : TableDecl} (hd : d ∈ t.declaredIdents n) :
    d.ident ∉ keywords := by
  have hfixed : "data_list" ∉ keywords ∧ "data_map" ∉ keywords := by decide
  rcases mem_declaredIdents_iff.1 hd with rfl | ⟨_, _, rfl⟩
  · exact hfixed.1
  · exact hfixed.2

/-- An identifier of a file about all tables is the module of an exported table, or no keyword. -/
theorem module_or_not_mem (hfile : managerFile ctx n = .ok file)
    (hd : d ∈ file.declaredIdents n) :
    (d.role = .module ∧ ∃ t ∈ ctx.exportTables, d.ident = Names.moduleIdent t.fullName) ∨
      (d.role ≠ .module ∧ d.ident ∉ keywords) := by
  obtain ⟨_, _, hbeans, htables⟩ := managerFile_eq_ok hfile
  rcases ManagerFile.mem_declaredIdents_iff.1 hd with
    ⟨decl, hdecl, rfl⟩ | ⟨decl, hdecl, rfl⟩ | ⟨decl, hdecl, hd⟩
  · obtain ⟨t, ht, hdecl⟩ := exists_of_mem_mapM htables hdecl
    exact .inl ⟨rfl, t, ht, (Names.exportedTable_eq_ok hdecl).module⟩
  · obtain ⟨t, _, hdecl⟩ := exists_of_mem_mapM htables hdecl
    refine .inr ⟨by simp [TableDecl.asMember], ?_⟩
    rw [TableDecl.asMember, (Names.exportedTable_eq_ok hdecl).member]
    exact clearOfKeywords_not_mem _
  · obtain ⟨b, _, hdecl⟩ := exists_of_mem_mapM hbeans hdecl
    exact .inr (BeanDecl.ident_not_mem hdecl hd)

/-- The module of each exported table is declared. -/
theorem exists_module (hfile : managerFile ctx n = .ok file) {t : TableDef}
    (ht : t ∈ ctx.exportTables) : ∃ decl : TableDecl, decl.asModule ∈ file.declaredIdents n ∧
      decl.module = Names.moduleIdent t.fullName := by
  obtain ⟨decl, hmem, hdecl⟩ := exists_of_mapM_eq_ok (managerFile_eq_ok hfile).2.2.2 ht
  exact ⟨decl, ManagerFile.mem_declaredIdents_iff.2 (.inl ⟨decl, hmem, rfl⟩),
    (Names.exportedTable_eq_ok hdecl).module⟩

end Keywords

/-- The keywords among the identifiers of a run: each identifier is declared by a line of the code, a
keyword as a module only, and just when an exported table without a namespace is called after it. The
files of the tables declare none. -/
structure KeywordsDeclared (ctx : Context) (n : Names) (file : ManagerFile) : Prop where
  written : ∀ d ∈ file.declaredIdents n, d.line ∈ file.code n
  role : ∀ d ∈ file.declaredIdents n, d.ident ∈ keywords → d.role = .module
  declared_iff : ∀ word ∈ keywords, (∃ d ∈ file.declaredIdents n, d.ident = word) ↔
    ∃ t ∈ ctx.exportTables, '.' ∉ t.fullName.toList ∧ smallWords t.fullName = [word.toList]
  tables : ∀ t ∈ ctx.exportTables, ∃ decl, n.exportedTable t = .ok decl ∧
    target.tableBody ctx t = .text (decl.code n).text ∧
    ∀ d ∈ decl.declaredIdents n, d.line ∈ decl.code n ∧ d.ident ∉ keywords

/-- What is generated for an accepted graph declares a keyword exactly when a table to be exported has
no namespace and is called after it, in whatever spelling, and then as the module of that table. All
other identifiers are kept clear of keywords, in every style. -/
theorem keywords_declared (g : TypeGraph) (ctx : Context) (n : Names) (hover : ctx.Over g)
    (hnames : namesOf ctx = .ok n) : ∃ file, managerFile ctx n = .ok file ∧
      target.manifestBody ctx = .text (file.code n).text ∧ KeywordsDeclared ctx n file := by
  have htypes : n.types = g.types := by rw [(namesOf_eq_ok_iff.1 hnames).2, hover.fixed.1]
  obtain ⟨file, hfile⟩ :=
    exists_managerFile htypes (fun _ => hover.declared_bean) hover.declared_table
  refine ⟨file, hfile, manifestBody_of_managerFile hnames hfile,
    fun d => file.line_mem_code, fun d hd hword => ?_, fun word hword => ?_, fun t ht => ?_⟩
  · exact (module_or_not_mem hfile hd).elim (·.1) fun h => absurd hword h.2
  · have hmodule : ∀ t : TableDef, Names.moduleIdent t.fullName = word ↔
        '.' ∉ t.fullName.toList ∧ smallWords t.fullName = [word.toList] := fun t =>
      Names.moduleIdent_eq_word_iff (by rintro rfl; revert hword; decide)
        (underscore_not_mem_keyword word hword)
    constructor
    · rintro ⟨d, hd, rfl⟩
      rcases module_or_not_mem hfile hd with ⟨_, t, ht, hident⟩ | ⟨_, hclear⟩
      · exact ⟨t, ht, (hmodule t).1 hident.symm⟩
      · exact absurd hword hclear
    · rintro ⟨t, ht, hcalled⟩
      obtain ⟨decl, hdecl, hident⟩ := exists_module hfile ht
      exact ⟨decl.asModule, hdecl, hident.trans ((hmodule t).2 hcalled)⟩
  · obtain ⟨decl, _, hdecl, _⟩ := Names.exists_exportedTable htypes (hover.declared_table t ht)
    refine ⟨decl, hdecl, tableBody_of_exportedTable hnames hdecl, fun d hd => ?_⟩
    exact ⟨decl.line_mem_code hd, TableDecl.ident_not_mem hd⟩

/-- An identifier of ASCII characters that begins with a letter. -/
def isIdentifier (name : String) : Bool :=
  match name.toList with
  | [] => false
  | c :: rest => c.isAlpha && rest.all fun c => c.isAlphanum || c = '_'

/-- The names of a type and of its fields. -/
def declaredNames : TypeDef → List String
  | .bean b => b.name :: b.fields.map (·.name)
  | .enum e => [e.name]
  | .table t => [t.name]

namespace Rounds

/-- A bean, and a table called after a keyword. -/
def round : BeanDef := ⟨"", "Round", none, false, [], [⟨"id", .primitive .int, none⟩], none⟩

def table : TableDef := ⟨"", "Match", "Round", none, .list, [], none, none⟩

def graph : TypeGraph := ⟨[.bean round, .table table], by decide⟩

/-- The names of a run over the graph. -/
def names : Names := ⟨graph.types, .underscored⟩

/-- The theorem applies to a run over the graph: it declares one keyword, and not another. -/
theorem rounds_keywords_declared : ∃ ctx file, ctx.Over graph ∧ namesOf ctx = .ok names ∧
    managerFile ctx names = .ok file ∧ KeywordsDeclared ctx names file ∧
    (∃ d ∈ file.declaredIdents names, d.ident = "match") ∧
    ¬∃ d ∈ file.declaredIdents names, d.ident = "type" := by
  obtain ⟨ctx, hover, _, htables, hnames⟩ :=
    exists_context graph ⟨"client", "Tables", "", []⟩ [table] rfl
  obtain ⟨file, hfile, _, hdeclared⟩ := keywords_declared graph ctx names hover hnames
  refine ⟨ctx, file, hover, hnames, hfile, hdeclared, ?_, ?_⟩
  · rw [hdeclared.declared_iff "match" (by decide), htables]
    decide +kernel
  · rw [hdeclared.declared_iff "type" (by decide), htables]
    decide +kernel

/-- All names of the graph are identifiers, and a run over it succeeds, but the module of the table is
declared by a keyword. -/
theorem rounds_module : (∀ d ∈ graph.types, ∀ name ∈ declaredNames d, isIdentifier name) ∧
    ∃ ctx files file, ctx.Over graph ∧ namesOf ctx = .ok names ∧ target.run ctx = .ok files ∧
      managerFile ctx names = .ok file ∧
      ∃ d ∈ file.declaredIdents names, d.role = .module ∧ d.ident ∈ keywords ∧
        d.line = "pub mod match;" ∧ d.line ∈ file.code names := by
  refine ⟨by decide, ?_⟩
  obtain ⟨ctx, files, hover, _, htables, hnames, hrun⟩ :=
    exists_run graph ⟨"client", "Tables", "", []⟩ [table] rfl (by decide +kernel)
  obtain ⟨file, hfile⟩ := exists_managerFile (n := names) rfl
    (fun _ => hover.declared_bean) hover.declared_table
  obtain ⟨decl, hdecl, hident⟩ :=
    exists_module hfile (t := table) (htables ▸ List.mem_singleton_self table)
  have hmodule : decl.module = "match" := hident.trans (by decide +kernel)
  refine ⟨ctx, files, file, hover, hnames, hrun, hfile, decl.asModule, hdecl, rfl, ?_, ?_,
    file.line_mem_code hdecl⟩
  · rw [TableDecl.asModule, hmodule]
    decide
  · rw [TableDecl.asModule, hmodule]
    rfl

end Rounds

end ConfigTables.Wrapper
