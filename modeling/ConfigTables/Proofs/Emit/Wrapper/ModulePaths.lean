import ConfigTables.Proofs.Emit.Wrapper.Lines
import ConfigTables.Proofs.Emit.Wrapper.Members
import Mathlib.Data.Set.Finite.Lemmas

/-!
    Where the modules of the file about all tables are looked for. The file gives the path of each
    module as it is below the output directory, and the path is followed from the directory of the
    file itself. The two are the same directory when the manager has no namespace; then every path
    leads to the code of its table. Below a namespace of the manager every path leads further down
    than the code that it is the path of, so some path leads nowhere. -/

namespace ConfigTables.Wrapper

/-! ### Paths in code -/

/-- The path that a line gives: what stands between the first quotes. -/
def pathValue (line : String) : String :=
  String.ofList ((line.toList.drop (pathMark ++ "\"").length).takeWhile (· ≠ '"'))

/-- The paths of modules that some code gives. -/
def pathValues (code : Code) : List String := (code.marked pathMark).map pathValue

/-- Whether a path in a file at `source` leads to the file at `path`. It is followed from the directory
of its own file. -/
def leadsTo (source value path : String) : Bool :=
  Path.components (Path.join ((Path.parent? source).getD "") value) = Path.components path

/-- Each of the paths in a file leads to the code of one table, and to that of each table leads one
path. -/
structure ModulesLead (manager : OutputFile) (codes : List OutputFile) (values : List String) :
    Prop where
  value : ∀ value ∈ values, codes.countP (fun f => leadsTo manager.path value f.path) = 1
  code : ∀ f ∈ codes, values.countP (fun value => leadsTo manager.path value f.path) = 1

theorem quote_not_mem_tableFile (t : TableDef) : '"' ∉ (tableFile t).toList := by
  rw [tableFile, String.append_assoc, String.toList_append, List.mem_append, not_or]
  exact ⟨not_mem_fileStem (by decide) (by decide) (by decide) (by decide) t.fullName, by decide⟩

theorem pathValue_of_quote_not_mem {value : String} (h : '"' ∉ value.toList) :
    pathValue ("#[path = \"" ++ value ++ "\"]") = value := by
  have hkept : ∀ c ∈ value.toList, decide (c ≠ '"') = true := by
    rintro c hc
    rw [decide_eq_true_iff]
    rintro rfl
    exact h hc
  have hdrop : ("#[path = \"" ++ value ++ "\"]").toList.drop (pathMark ++ "\"").length =
      value.toList ++ ['"', ']'] := by
    rw [String.append_assoc, String.toList_append, String.toList_append]
    rfl
  rw [pathValue, hdrop, List.takeWhile_append_of_pos hkept, List.takeWhile_cons_of_neg (by simp),
    List.append_nil, String.ofList_toList]

/-! ### Steps of paths -/

/-- A full name of which each segment has a form in snake case that is not empty. -/
def Spellable (fullName : String) : Prop :=
  ∀ segment ∈ dotted fullName, Convention.snake.apply segment ≠ ""

instance (fullName : String) : Decidable (Spellable fullName) :=
  inferInstanceAs (Decidable (∀ segment ∈ dotted fullName, Convention.snake.apply segment ≠ ""))

/-- The directories that the path of a full name leads through. -/
def directories (fullName : String) : List String := (snakeSegments fullName).dropLast

/-- These directories, and the name of the file with code. -/
def codeNames (fullName : String) : List String :=
  directories fullName ++
    [(snakeSegments fullName).getLast (snakeSegments_ne_nil fullName) ++ ("." ++ suffix)]

section Steps
variable {fullName manager a b : String}

theorem intercalate_concat_append (sep : String) (l : List String) (last text : String) :
    sep.intercalate (l ++ [last]) ++ text = sep.intercalate (l ++ [last ++ text]) := by
  by_cases hl : l = []
  · rw [hl, List.nil_append, List.nil_append, String.intercalate_singleton,
      String.intercalate_singleton]
  · rw [String.intercalate_append_of_ne_nil hl (List.cons_ne_nil _ _),
      String.intercalate_append_of_ne_nil hl (List.cons_ne_nil _ _), String.intercalate_singleton,
      String.intercalate_singleton, String.append_assoc]

theorem fileName_eq (fullName : String) :
    target.fileName fullName = "/".intercalate (codeNames fullName) := by
  have hsegments := List.dropLast_append_getLast (snakeSegments_ne_nil fullName)
  have hstem : fileStem fullName = "/".intercalate (directories fullName ++
      [(snakeSegments fullName).getLast (snakeSegments_ne_nil fullName)]) := by
    rw [directories, hsegments]
    rfl
  change fileStem fullName ++ "." ++ suffix = _
  rw [String.append_assoc, hstem, intercalate_concat_append]
  rfl

/-- Only the segments of a namespace are directories. -/
theorem directories_eq_nil_iff : directories fullName = [] ↔ '.' ∉ fullName.toList := by
  by_cases hdot : '.' ∈ fullName.toList
  · obtain ⟨first, second, rest, hdotted⟩ := exists_dotted_of_mem hdot
    refine iff_of_false ?_ fun h => h hdot
    rw [directories, snakeSegments, hdotted]
    simp
  · refine iff_of_true ?_ hdot
    rw [directories, snakeSegments, dotted_of_not_mem hdot]
    rfl

theorem isName_of_mem_snakeSegments (h : Spellable fullName) :
    ∀ n ∈ snakeSegments fullName, Path.IsName n := by
  refine List.forall_mem_map.2 fun segment hsegment => ?_
  have hslash : '/' ∉ (Convention.snake.apply segment).toList :=
    Convention.not_mem_snake (by decide) (by decide) (by decide) segment
  have hdot : '.' ∉ (Convention.snake.apply segment).toList :=
    Convention.not_mem_snake (by decide) (by decide) (by decide) segment
  refine ⟨h segment hsegment, ?_, ?_, hslash⟩
  · exact fun heq => hdot (by rw [heq]; decide)
  · exact fun heq => hdot (by rw [heq]; decide)

theorem isName_of_mem_codeNames (h : Spellable fullName) :
    ∀ n ∈ codeNames fullName, Path.IsName n := by
  have hsegments := isName_of_mem_snakeSegments h
  refine List.forall_mem_append.2 ⟨fun n hn => hsegments n (List.dropLast_subset _ hn), ?_⟩
  have hlast := hsegments _ (List.getLast_mem (snakeSegments_ne_nil fullName))
  refine List.forall_mem_singleton.2 (.of_long ?_ ?_)
  · rw [String.toList_append, List.mem_append, not_or]
    exact ⟨hlast.slash, by decide⟩
  · have hending : ("." ++ suffix).toList.length = 3 := rfl
    rw [String.toList_append, List.length_append, hending]
    omega

/-- The steps of the path of code are its directories and its file. -/
theorem components_fileName (h : Spellable fullName) :
    Path.isInside (target.fileName fullName) = true ∧
      Path.components (target.fileName fullName) = (codeNames fullName).map .name := by
  rw [fileName_eq]
  exact ⟨Path.isInside_intercalate (by simp [codeNames]) (isName_of_mem_codeNames h),
    Path.components_intercalate (by simp [codeNames]) (isName_of_mem_codeNames h)⟩

theorem components_fileName_inj (ha : Spellable a) (hb : Spellable b) :
    Path.components (target.fileName a) = Path.components (target.fileName b) ↔
      target.fileName a = target.fileName b := by
  refine ⟨fun h => ?_, fun h => by rw [h]⟩
  rw [(components_fileName ha).2, (components_fileName hb).2] at h
  rw [fileName_eq, fileName_eq, List.map_injective_iff.2 Path.name_injective h]

/-- A path below the output directory is taken to be one below the directories of the manager. -/
theorem leadsTo_iff {value path : String} (hmanager : Spellable manager)
    (hvalue : Path.isInside value = true) :
    leadsTo (target.fileName manager) value path = true ↔
      (directories manager).map .name ++ Path.components value = Path.components path := by
  have hsteps := (components_fileName hmanager).2
  rw [codeNames, List.map_append, List.map_singleton] at hsteps
  obtain ⟨directory, hparent, hdirectory⟩ := Path.exists_parent hsteps
  rw [leadsTo, decide_eq_true_iff, hparent, Option.getD_some, Path.components_join hvalue,
    hdirectory]

end Steps

/-! ### Where the paths lead -/

section Lead
variable {manager f : OutputFile} {codes : List OutputFile} {name : String}

theorem countP_path (hnodup : (codes.map (·.path)).Nodup) (hf : f ∈ codes) :
    codes.countP (fun f' => f'.path == f.path) = 1 := by
  have hcount := List.count_eq_one_of_mem hnodup (List.mem_map_of_mem (f := (·.path)) hf)
  rwa [List.count, List.countP_map] at hcount

/-- Where each path leads to its own code and no other, the modules are found. -/
theorem modulesLead_of_own (hnodup : (codes.map (·.path)).Nodup)
    (h : ∀ f ∈ codes, ∀ f' ∈ codes, leadsTo manager.path f.path f'.path = true ↔ f.path = f'.path) :
    ModulesLead manager codes (codes.map (·.path)) := by
  refine ⟨List.forall_mem_map.2 fun f hf => ?_, fun f hf => ?_⟩
  · rw [← countP_path hnodup hf]
    refine List.countP_congr fun f' hf' => ?_
    rw [h f hf f' hf', beq_iff_eq, eq_comm]
  · rw [List.countP_map, ← countP_path hnodup hf]
    refine List.countP_congr fun f' hf' => ?_
    rw [Function.comp_apply, h f' hf' f hf, beq_iff_eq]

/-- Where each path leads further down than the file that it is the path of, the one with the most
steps leads nowhere. -/
theorem not_modulesLead_of_longer (hne : codes ≠ [])
    (h : ∀ f ∈ codes, ∀ f' ∈ codes, leadsTo manager.path f.path f'.path = true →
      (Path.components f.path).length < (Path.components f'.path).length) :
    ¬ModulesLead manager codes (codes.map (·.path)) := by
  obtain ⟨f, hf, hlongest⟩ := Set.exists_max_image {f | f ∈ codes}
    (fun f => (Path.components f.path).length) codes.finite_toSet (List.exists_mem_of_ne_nil _ hne)
  intro hlead
  have hcount := hlead.value f.path (List.mem_map_of_mem hf)
  obtain ⟨f', hf', hleads⟩ := List.countP_pos_iff.1 (hcount ▸ Nat.one_pos)
  exact absurd (h f hf f' hf' hleads) (Nat.not_lt.2 (hlongest f' hf'))

/-- The paths lead to the code of the tables exactly when there is none, or the manager has no
namespace. -/
theorem modulesLead_iff (hname : Spellable name) (hpath : manager.path = target.fileName name)
    (hcodes : ∀ f ∈ codes, ∃ fullName, Spellable fullName ∧ f.path = target.fileName fullName)
    (hnodup : (codes.map (·.path)).Nodup) :
    ModulesLead manager codes (codes.map (·.path)) ↔ codes = [] ∨ '.' ∉ name.toList := by
  -- The steps of a path come behind the directories of the manager, whatever it is to lead to.
  have hleads : ∀ f ∈ codes, ∀ path, leadsTo manager.path f.path path = true ↔
      (directories name).map .name ++ Path.components f.path = Path.components path := by
    intro f hf path
    obtain ⟨fullName, hfullName, hfile⟩ := hcodes f hf
    rw [hpath]
    exact leadsTo_iff hname (hfile ▸ (components_fileName hfullName).1)
  by_cases hdot : '.' ∈ name.toList
  · by_cases hne : codes = []
    · exact iff_of_true (hne ▸ ⟨by simp, by simp⟩) (.inl hne)
    · refine iff_of_false (not_modulesLead_of_longer hne fun f hf f' _ h => ?_) (by simp [hne, hdot])
      have hdirectories : directories name ≠ [] := fun h => directories_eq_nil_iff.1 h hdot
      rw [← (hleads f hf f'.path).1 h, List.length_append, List.length_map]
      exact Nat.lt_add_of_pos_left (List.length_pos_iff.2 hdirectories)
  · refine iff_of_true (modulesLead_of_own hnodup fun f hf f' hf' => ?_) (.inr hdot)
    obtain ⟨a, ha, hfile⟩ := hcodes f hf
    obtain ⟨b, hb, hfile'⟩ := hcodes f' hf'
    rw [hleads f hf, directories_eq_nil_iff.2 hdot, List.map_nil, List.nil_append, hfile, hfile']
    exact components_fileName_inj ha hb

end Lead

/-- The files of a run into an empty manifest: the file about all tables, and one with the code of each
table. The paths that the first one gives are those of the others, in order. -/
structure ModulesWritten (ctx : Context) (m : Manifest) (n : Names) (file : ManagerFile)
    (manager : OutputFile) (codes : List OutputFile) : Prop where
  names : namesOf ctx = .ok n
  declared : managerFile ctx n = .ok file
  files : m.files = manager :: codes
  path : manager.path = target.fileName ctx.target.manager
  content : manager.content = target.header ++ (file.code n).text
  paths : codes.map (·.path) = ctx.exportTables.map target.tableFile
  values : pathValues (file.code n) = codes.map (·.path)

theorem exists_modulesWritten {ctx : Context} {m : Manifest}
    (hrun : target.runInto ctx ⟨targetName, []⟩ = .ok m) :
    ∃ n file manager codes, ModulesWritten ctx m n file manager codes ∧
      (codes.map (·.path)).Nodup := by
  obtain ⟨manager, codes, hfiles, hcomplete, hfirst, hcodes⟩ := Target.files_of_runInto hrun
  obtain ⟨n, file, hnames, hfile, rfl⟩ := manager_of_gives hfirst
  have hpaths : codes.map (·.path) = ctx.exportTables.map target.tableFile :=
    map_eq_of_forall₂ hcodes fun _ _ h => path_of_gives h
  have hvalues : pathValues (file.code n) = codes.map (·.path) := by
    rw [pathValues, marked_managerFile, List.map_map, hpaths]
    refine map_eq_of_mapM (managerFile_eq_ok hfile).2.2.2 fun t decl hdecl => ?_
    rw [Function.comp_apply, (Names.exportedTable_eq_ok hdecl).file]
    exact pathValue_of_quote_not_mem (quote_not_mem_tableFile t)
  have hnodup := hcomplete.paths
  rw [map_unitPath] at hnodup
  exact ⟨n, file, _, codes, ⟨hnames, hfile, hfiles, rfl, rfl, hpaths, hvalues⟩,
    hpaths ▸ (List.nodup_cons.1 hnodup).2⟩

/-- A run into an empty manifest, over names of which each segment has a form in snake case, gives as
its first file one with the modules of the tables, and their paths are those of the other files. Taken
from the directory of the first file they lead to just these files, one path to each, if and only if
there are no tables or the manager has no namespace. -/
theorem module_paths_lead_iff (ctx : Context) (m : Manifest)
    (hrun : target.runInto ctx ⟨targetName, []⟩ = .ok m) (hmanager : Spellable ctx.target.manager)
    (htables : ∀ t ∈ ctx.exportTables, Spellable t.fullName) :
    ∃ n file manager codes, ModulesWritten ctx m n file manager codes ∧
      (ModulesLead manager codes (pathValues (file.code n)) ↔
        ctx.exportTables = [] ∨ '.' ∉ ctx.target.manager.toList) := by
  obtain ⟨n, file, manager, codes, hwritten, hnodup⟩ := exists_modulesWritten hrun
  have hspelled : ∀ f ∈ codes, ∃ fullName, Spellable fullName ∧
      f.path = target.fileName fullName := by
    intro f hf
    obtain ⟨t, ht, hpath⟩ := List.mem_map.1 (hwritten.paths ▸ List.mem_map_of_mem hf)
    exact ⟨t.fullName, htables t ht, hpath.symm⟩
  have hnil : codes = [] ↔ ctx.exportTables = [] := by
    rw [← List.map_eq_nil_iff (f := (·.path)), hwritten.paths, List.map_eq_nil_iff]
  refine ⟨n, file, manager, codes, hwritten, ?_⟩
  rw [hwritten.values, ← hnil]
  exact modulesLead_iff hmanager hwritten.path hspelled hnodup

namespace Arcade

/-- A bean and a table of it. -/
def item : BeanDef := ⟨"", "Item", none, false, [], [⟨"id", .primitive .int, none⟩], none⟩

def table : TableDef := ⟨"", "TbItem", "Item", none, .list, [], none, none⟩

def graph : TypeGraph := ⟨[.bean item, .table table], by decide⟩

theorem exists_arcade (manager : String)
    (hpaths : [target.fileName manager, target.tableFile table].Nodup) :
    ∃ (ctx : Context) (m : Manifest), ctx.target.manager = manager ∧ ctx.exportTables = [table] ∧
      target.runInto ctx ⟨targetName, []⟩ = .ok m := by
  obtain ⟨ctx, files, _, htarget, htables, _, hrun⟩ :=
    exists_run graph ⟨"client", manager, "", []⟩ [table] rfl hpaths
  exact ⟨ctx, _, by rw [htarget], htables, bind_eq_ok_iff.2 ⟨files, hrun, rfl⟩⟩

/-- The theorem applies to a run with a manager that has no namespace: the module is found. -/
theorem arcade_path_leads : ∃ ctx m n file manager codes,
    target.runInto ctx ⟨targetName, []⟩ = .ok m ∧ Spellable ctx.target.manager ∧
    (∀ t ∈ ctx.exportTables, Spellable t.fullName) ∧
    ModulesWritten ctx m n file manager codes ∧ pathValues (file.code n) = ["tb_item.rs"] ∧
    ModulesLead manager codes (pathValues (file.code n)) := by
  obtain ⟨ctx, m, hmanager, htables, hrun⟩ := exists_arcade "Tables" (by decide +kernel)
  have hspelled : Spellable ctx.target.manager ∧ ∀ t ∈ ctx.exportTables, Spellable t.fullName := by
    rw [hmanager, htables]
    decide +kernel
  obtain ⟨n, file, manager, codes, hwritten, hlead⟩ :=
    module_paths_lead_iff ctx m hrun hspelled.1 hspelled.2
  refine ⟨ctx, m, n, file, manager, codes, hrun, hspelled.1, hspelled.2, hwritten, ?_, ?_⟩
  · rw [hwritten.values, hwritten.paths, htables]
    decide +kernel
  · exact hlead.2 (.inr (by rw [hmanager]; decide))

/-- With a manager in a namespace the run succeeds too, but the only path leads to a file that is not
generated. -/
theorem arcade_path_lost : ∃ ctx m n file manager code,
    target.runInto ctx ⟨targetName, []⟩ = .ok m ∧ Spellable ctx.target.manager ∧
    (∀ t ∈ ctx.exportTables, Spellable t.fullName) ∧
    ModulesWritten ctx m n file manager [code] ∧ manager.path = "game/tables.rs" ∧
    code.path = "tb_item.rs" ∧ pathValues (file.code n) = ["tb_item.rs"] ∧
    leadsTo manager.path "tb_item.rs" "game/tb_item.rs" ∧
    ¬ModulesLead manager [code] (pathValues (file.code n)) := by
  obtain ⟨ctx, m, hmanager, htables, hrun⟩ := exists_arcade "game.Tables" (by decide +kernel)
  have hspelled : Spellable ctx.target.manager ∧ ∀ t ∈ ctx.exportTables, Spellable t.fullName := by
    rw [hmanager, htables]
    decide +kernel
  obtain ⟨n, file, manager, codes, hwritten, _⟩ := exists_modulesWritten hrun
  have hpath : manager.path = "game/tables.rs" := by
    rw [hwritten.path, hmanager]
    decide +kernel
  have hcodes : codes.map (·.path) = ["tb_item.rs"] := by
    rw [hwritten.paths, htables]
    decide +kernel
  obtain ⟨code, rfl, hcode⟩ := List.map_eq_singleton_iff.1 hcodes
  refine ⟨ctx, m, n, file, manager, code, hrun, hspelled.1, hspelled.2, hwritten, hpath, hcode,
    hwritten.values.trans hcodes, by rw [hpath]; decide +kernel, fun hlead => ?_⟩
  have hcount := hlead.code code (List.mem_singleton_self code)
  rw [hwritten.values, hcodes, hpath, hcode] at hcount
  revert hcount
  decide +kernel

end Arcade

end ConfigTables.Wrapper
