import ConfigTables.Proofs.Emit.Wrapper.Distinct
import ConfigTables.Proofs.Naming.Segments

/-!
    The modules of the tables, and the fields of the manager that hold them. A run compares paths
    alone, and that is enough: a module is called after the path of its table, and can be read back
    from its name. In the style with underscores the same holds of a field of the manager, whose name
    is that of the module with an underscore behind if it is a keyword; no module has such a name. -/

namespace ConfigTables.Wrapper

/-- A keyword is one word. -/
theorem underscore_not_mem_keyword : ∀ word ∈ keywords, '_' ∉ word.toList := by decide

section Idents
variable {n : Names} {a b : String}

/-- Two tables have one module exactly when their paths are the same. -/
theorem Names.moduleIdent_eq_iff_fileStem : moduleIdent a = moduleIdent b ↔ fileStem a = fileStem b :=
  moduleIdent_eq_iff.trans fileStem_eq_iff.symm

/-- In snake case, a field of the manager is called after the module of its table. -/
theorem Names.memberIdent_of_snake (hstyle : n.style.property = .snake) (fullName : String) :
    n.memberIdent fullName = clearOfKeywords (moduleIdent fullName) := by
  rw [memberIdent, hstyle]
  rfl

/-- Then two tables have one field exactly when their paths are the same. -/
theorem Names.memberIdent_eq_iff (hstyle : n.style.property = .snake) :
    n.memberIdent a = n.memberIdent b ↔ fileStem a = fileStem b := by
  have hclear : ∀ fullName, ∀ word ∈ keywords, moduleIdent fullName ≠ word ++ "_" :=
    fun fullName word hword => moduleIdent_ne_append (underscore_not_mem_keyword word hword) fullName
  rw [memberIdent_of_snake hstyle, memberIdent_of_snake hstyle,
    clearOfKeywords_eq_iff (hclear a) (hclear b)]
  exact moduleIdent_eq_iff_fileStem

end Idents

/-- The modules of a file about all tables are called after the paths of the tables and differ. In the
style with underscores the fields of the manager are called like the modules, but clear of keywords,
and differ too. -/
structure MembersApart (ctx : Context) (n : Names) (file : ManagerFile) : Prop where
  modules : file.tables.map (·.module) =
    ctx.exportTables.map fun t => flatPath (fileStem t.fullName)
  modules_nodup : (file.tables.map (·.module)).Nodup
  members : n.style = .underscored → file.tables.map (·.member) =
    ctx.exportTables.map fun t => clearOfKeywords ("__".intercalate (snakeSegments t.fullName))
  members_nodup : n.style = .underscored → (file.tables.map (·.member)).Nodup

section File
variable {ctx : Context} {n : Names} {file : ManagerFile}

theorem map_module (hfile : managerFile ctx n = .ok file) :
    file.tables.map (·.module) = ctx.exportTables.map fun t => Names.moduleIdent t.fullName :=
  map_eq_of_mapM (managerFile_eq_ok hfile).2.2.2 fun _ _ hdecl =>
    (Names.exportedTable_eq_ok hdecl).module

theorem map_member (hfile : managerFile ctx n = .ok file) :
    file.tables.map (·.member) = ctx.exportTables.map fun t => n.memberIdent t.fullName :=
  map_eq_of_mapM (managerFile_eq_ok hfile).2.2.2 fun _ _ hdecl =>
    (Names.exportedTable_eq_ok hdecl).member

theorem tableFile_eq_iff {t t' : TableDef} :
    tableFile t = tableFile t' ↔ fileStem t.fullName = fileStem t'.fullName := by
  rw [tableFile, tableFile, String.append_assoc, String.append_assoc]
  exact String.append_left_inj _

/-- Tables with different paths have different stems. -/
theorem nodup_fileStem (h : ((Target.units ctx).map (target.unitPath ctx)).Nodup) :
    (ctx.exportTables.map fun t => fileStem t.fullName).Nodup := by
  rw [map_unitPath] at h
  exact (nodup_map_iff fun _ _ _ _ => tableFile_eq_iff).1 (List.nodup_cons.1 h).2

theorem membersApart_of_managerFile (hfile : managerFile ctx n = .ok file)
    (hpaths : ((Target.units ctx).map (target.unitPath ctx)).Nodup) : MembersApart ctx n file := by
  have hstems := nodup_fileStem hpaths
  refine ⟨?_, ?_, fun hstyle => ?_, fun hstyle => ?_⟩
  · rw [map_module hfile]
    exact List.map_congr_left fun t _ => Names.moduleIdent_eq_flatPath t.fullName
  · rw [map_module hfile]
    exact (nodup_map_iff fun _ _ _ _ => Names.moduleIdent_eq_iff_fileStem).2 hstems
  · rw [map_member hfile]
    exact List.map_congr_left fun t _ => Names.memberIdent_of_snake (by rw [hstyle]; rfl) t.fullName
  · rw [map_member hfile]
    exact (nodup_map_iff fun _ _ _ _ => Names.memberIdent_eq_iff (by rw [hstyle]; rfl)).2 hstems

end File

/-- A run that succeeds keeps modules and fields of the manager apart: its first file is the code of a
file about all tables in which no two tables have one module and, in the style with underscores, no two
have one field. -/
theorem members_apart (ctx : Context) (files : List OutputFile) (hrun : target.run ctx = .ok files) :
    ∃ n file rest, namesOf ctx = .ok n ∧ managerFile ctx n = .ok file ∧
      files = ⟨target.manifestFile ctx, target.header ++ (file.code n).text⟩ :: rest ∧
      MembersApart ctx n file := by
  obtain ⟨hcomplete, hgives⟩ := Target.run_eq_ok_iff.1 hrun
  obtain ⟨first, rest, hfirst, _, rfl⟩ := List.forall₂_cons_left_iff.1 hgives
  obtain ⟨n, file, hnames, hfile, rfl⟩ := manager_of_gives hfirst
  exact ⟨n, file, rest, hnames, hfile, rfl, membersApart_of_managerFile hfile hcomplete.paths⟩

namespace Shop

/-- A bean, a table called after a keyword, and a table in a namespace. -/
def item : BeanDef := ⟨"", "Item", none, false, [], [⟨"id", .primitive .int, none⟩], none⟩

def kinds : TableDef := ⟨"", "Type", "Item", none, .list, [], none, none⟩

def wares : TableDef := ⟨"shop", "TbWare", "Item", none, .list, [], none, none⟩

def graph : TypeGraph := ⟨[.bean item, .table kinds, .table wares], by decide⟩

/-- The theorem applies to a run over the graph. -/
theorem shop_members_apart : ∃ ctx files file rest, target.run ctx = .ok files ∧
    managerFile ctx ⟨graph.types, .underscored⟩ = .ok file ∧
    files = ⟨target.manifestFile ctx,
      target.header ++ (file.code ⟨graph.types, .underscored⟩).text⟩ :: rest ∧
    MembersApart ctx ⟨graph.types, .underscored⟩ file ∧
    file.tables.map (·.member) = ["type_", "shop__tb_ware"] := by
  obtain ⟨ctx, files, _, _, htables, hnames, hrun⟩ :=
    exists_run graph ⟨"client", "Tables", "", []⟩ [kinds, wares] rfl (by decide +kernel)
  obtain ⟨n, file, rest, hnames', hfile, hfiles, hapart⟩ := members_apart ctx files hrun
  cases hnames.symm.trans hnames'
  refine ⟨ctx, files, file, rest, hrun, hfile, hfiles, hapart, ?_⟩
  rw [hapart.members rfl, htables]
  decide +kernel

end Shop

end ConfigTables.Wrapper
