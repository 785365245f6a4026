import ConfigTables.Emit.DataTarget
import ConfigTables.Proofs.Emit.Context
import ConfigTables.Proofs.Emit.Run
import ConfigTables.Proofs.Emit.Wrapper.Declared
import ConfigTables.Proofs.Rows.Merged
import ConfigTables.Proofs.Rows.Registered
import ConfigTables.Proofs.Rows.Sorted

/-!
    What a run can fail with once the data are loaded. A context of an accepted graph always comes
    about, and loading registers the rows of every table that is exported. Then the data target has
    only the counts of single rows to complain of, and the code target only the name of the style;
    apart from that, two files may have one path. -/

namespace ConfigTables

/-! ### Contexts with data -/

namespace Context

/-- What a run can rely on: the graph is accepted and has all that is exported, and the rows of each
exported table are registered, as the loader gave them. -/
structure Loads (g : TypeGraph) (excluded : List String) (loader : Loader) (ctx : Context) :
    Prop where
  graph : ctx.graph = g
  tables : ∀ t ∈ ctx.exportTables, .table t ∈ g.types
  beans : ∀ b ∈ ctx.closure.beans, .bean b ∈ g.types
  excluded : ctx.store.excluded = excluded
  data : ∀ t ∈ ctx.exportTables, ∃ main patch, loader t = .rows main patch ∧
    ctx.store.Holds t main patch
  rows : ∀ t ∈ ctx.exportTables, ∀ main patch, loader t = .rows main patch →
    ∀ r ∈ main ++ patch, g.Row t r

end Context

/-- A table of a single row, the loaded rows of which come to another number of rows to export. -/
def Miscounts (loader : Loader) (excluded : List String) (t : TableDef) (count : Nat) : Prop :=
  t.isSingleton = true ∧ count ≠ 1 ∧ ∃ main patch records, loader t = .rows main patch ∧
    mergeRecords t main patch = .ok records ∧
    (records.filter (·.isKept excluded)).length = count

namespace Context.Loads
variable {g : TypeGraph} {excluded : List String} {loader : Loader} {ctx : Context} {t : TableDef}

/-- The records of an exported table are rows of it, and there is one where there has to be one. -/
theorem exportRecords_cases (h : Loads g excluded loader ctx) (ht : t ∈ ctx.exportTables) :
    (∃ records, ctx.exportRecords t = .ok records ∧ (∀ r ∈ records, g.Row t r) ∧
      ∀ count, ¬Miscounts loader excluded t count) ∨
    ∃ count, ctx.exportRecords t = .error (.singleton t.fullName count) ∧
      Miscounts loader excluded t count := by
  obtain ⟨main, patch, hloaded, merged, hmerged, hget⟩ := h.data t ht
  have hexport := Store.exportRecords_of_get? hget
  rw [h.excluded] at hexport
  by_cases hcount : t.isSingleton = true ∧ (merged.filter (·.isKept excluded)).length ≠ 1
  · right
    refine ⟨_, ?_, hcount.1, hcount.2, main, patch, merged, hloaded, hmerged, rfl⟩
    rw [exportRecords, hexport]
    simp [hcount]
  · left
    refine ⟨merged.filter (·.isKept excluded), ?_, fun r hr => ?_, ?_⟩
    · rw [exportRecords, hexport]
      simp only [Bool.and_eq_true, decide_eq_true_eq, if_neg hcount]
    · exact h.rows t ht main patch hloaded r (mem_of_mergeRecords hmerged (List.mem_filter.1 hr).1)
    · rintro count ⟨hsingle, hne, main', patch', records, hloaded', hrecords, rfl⟩
      cases hloaded.symm.trans hloaded'
      cases hmerged.symm.trans hrecords
      exact hcount ⟨hsingle, hne⟩

end Context.Loads

/-! ### Runs -/

/-- A run that can fail for one kind of cause, which its first unit finds just under a condition, and
for a clash of paths. -/
structure FailsOnly (cause : RunError → Prop) (condition : Prop) (result : Except RunError Manifest) :
    Prop where
  failure : ∀ e, result = .error e → (∃ c, cause c ∧ e = .unitFailed GenUnit.manifest.label c) ∨
    ∃ path first second, e = .duplicatePath path first second
  exact : (∃ label c, cause c ∧ result = .error (.unitFailed label c)) ↔ condition

/-- A target fails for no other causes than the file about all tables does. -/
theorem failsOnly_of_units {target : Target} {ctx : Context} {cause : RunError → Prop}
    {condition : Prop} (m : Manifest)
    (hfails : condition → ∃ c, cause c ∧ target.manifestBody ctx = .failed c)
    (htexts : ¬condition → ∀ u ∈ Target.units ctx, ∃ body, target.unitBody ctx u = .text body) :
    FailsOnly cause condition (target.runInto ctx m) := by
  by_cases hcondition : condition
  · obtain ⟨c, hc, hbody⟩ := hfails hcondition
    have hrun := Target.runInto_eq_error_iff (m := m).2 (Target.run_of_manifest_failed hbody)
    refine ⟨fun e he => .inl ⟨c, hc, ?_⟩, iff_of_true ⟨_, c, hc, hrun⟩ hcondition⟩
    exact Except.error.inj (he.symm.trans hrun)
  · have hclash : ∀ e, target.runInto ctx m = .error e →
        ∃ path first second, e = .duplicatePath path first second := fun e he =>
      Target.duplicatePath_of_texts (htexts hcondition) (Target.runInto_eq_error_iff.1 he)
    refine ⟨fun e he => .inr (hclash e he), iff_of_false ?_ hcondition⟩
    rintro ⟨label, c, _, he⟩
    obtain ⟨_, _, _, ⟨⟩⟩ := hclash _ he

section Targets
variable {g : TypeGraph} {excluded : List String} {loader : Loader} {ctx : Context}

/-- The data target writes the rows of a table whose records can be exported. -/
theorem DataTarget.exists_tableBody {t : TableDef} {records : List Record} (hgraph : ctx.graph = g)
    (hexport : ctx.exportRecords t = .ok records) (hrows : ∀ r ∈ records, g.Row t r) :
    ∃ body, target.tableBody ctx t = .text body := by
  obtain ⟨sorted, hsort, _⟩ := Store.exists_sortByKey hrows
  have htext : rowsText ctx t = .ok (rowsJson sorted).fileText :=
    bind_eq_ok_iff.2 ⟨sorted, bind_eq_ok_iff.2 ⟨records, hexport, hgraph ▸ hsort⟩, rfl⟩
  exact ⟨_, by simp only [target, htext]; rfl⟩

/-- The index needs the number of rows of every table, so it fails for the first one that is missing
them. -/
theorem DataTarget.indexEntries_of_miscounts {t : TableDef} {count : Nat}
    (h : ctx.Loads g excluded loader) (ht : t ∈ ctx.exportTables)
    (hcount : Miscounts loader excluded t count) : ∃ u ∈ ctx.exportTables, ∃ count',
      Miscounts loader excluded u count' ∧
        indexEntries ctx = .error (.singleton u.fullName count') := by
  cases hindex : indexEntries ctx with
  | ok entries =>
    obtain ⟨entry, _, hentry⟩ := exists_of_mapM_eq_ok hindex ht
    obtain ⟨records, hrecords, _⟩ := bind_eq_ok_iff.1 hentry
    rcases h.exportRecords_cases ht with ⟨_, _, _, hnone⟩ | ⟨_, herror, _⟩
    · exact absurd hcount (hnone count)
    · cases hrecords.symm.trans herror
  | error e =>
    obtain ⟨before, u, after, htables, _, hu⟩ := mapM_eq_error_iff.1 hindex
    have hmem : u ∈ ctx.exportTables := htables ▸ by simp
    rcases bind_eq_error_iff.1 hu with hu | ⟨_, _, ⟨⟩⟩
    rcases h.exportRecords_cases hmem with ⟨_, hok, _⟩ | ⟨count', herror, hcount'⟩
    · cases hu.symm.trans hok
    · cases hu.symm.trans herror
      exact ⟨u, hmem, count', hcount', rfl⟩

/-- The data target only fails for a table of a single row that exports another number of rows. -/
theorem DataTarget.failsOnly (h : ctx.Loads g excluded loader) (m : Manifest) :
    FailsOnly (fun c => ∃ t ∈ ctx.exportTables, ∃ count, Miscounts loader excluded t count ∧
        c = .data (.singleton t.fullName count))
      (∃ t ∈ ctx.exportTables, ∃ count, Miscounts loader excluded t count)
      (target.runInto ctx m) := by
  refine failsOnly_of_units m ?_ ?_
  · rintro ⟨t, ht, count, hcount⟩
    obtain ⟨u, hu, count', hcount', hindex⟩ := indexEntries_of_miscounts h ht hcount
    refine ⟨_, ⟨u, hu, count', hcount', rfl⟩, ?_⟩
    simp only [target, indexText, hindex]
    rfl
  · intro hnone
    have hexport : ∀ t ∈ ctx.exportTables, ∃ records, ctx.exportRecords t = .ok records ∧
        ∀ r ∈ records, g.Row t r := by
      intro t ht
      rcases h.exportRecords_cases ht with ⟨records, hok, hrows, _⟩ | ⟨count, _, hcount⟩
      · exact ⟨records, hok, hrows⟩
      · exact absurd ⟨t, ht, count, hcount⟩ hnone
    have hindex : ∃ entries, indexEntries ctx = .ok entries := by
      refine exists_mapM fun t ht => ?_
      obtain ⟨records, hok, _⟩ := hexport t ht
      exact ⟨_, bind_eq_ok_iff.2 ⟨records, hok, rfl⟩⟩
    obtain ⟨entries, hindex⟩ := hindex
    refine List.forall_mem_cons.2 ⟨⟨(indexJson ctx.target.manager entries).fileText, ?_⟩, ?_⟩
    · simp only [Target.unitBody, target, indexText, hindex]
      rfl
    · refine List.forall_mem_map.2 fun t ht => ?_
      obtain ⟨records, hok, hrows⟩ := hexport t ht
      exact exists_tableBody h.graph hok hrows

/-- The name of the style that the options choose for generated code. -/
def Wrapper.styleName (options : Options) : String :=
  options.findD targetName Options.codeStyle "rust-default"

/-- Identifiers can be made just when the style is there. -/
theorem Wrapper.namesOf_eq (ctx : Context) : namesOf ctx =
    match Style.ofName? (styleName ctx.options) with
    | some style => .ok ⟨ctx.graph.types, style⟩
    | none => .error (.unknownStyle (styleName ctx.options)) := by
  unfold namesOf Context.codeStyle styleName
  dsimp only
  cases Style.ofName? (ctx.options.findD targetName Options.codeStyle "rust-default") <;> rfl

/-- The code target only fails for a style that there is not. -/
theorem Wrapper.failsOnly (h : ctx.Loads g excluded loader) (m : Manifest) :
    FailsOnly (· = .unknownStyle (styleName ctx.options))
      (Style.ofName? (styleName ctx.options) = none) (target.runInto ctx m) := by
  refine failsOnly_of_units m ?_ ?_
  · intro hstyle
    have hnames : namesOf ctx = .error (.unknownStyle (styleName ctx.options)) := by
      rw [namesOf_eq, hstyle]
    refine ⟨_, rfl, ?_⟩
    simp only [target, managerText, hnames]
    rfl
  · intro hstyle
    obtain ⟨style, hstyle⟩ := Option.ne_none_iff_exists'.1 hstyle
    have hnames : namesOf ctx = .ok ⟨g.types, style⟩ := by
      rw [namesOf_eq, hstyle, h.graph]
    exact exists_unitBody (n := ⟨g.types, style⟩) rfl hnames h.beans h.tables

end Targets

/-- After loading, the targets fail only in the ways that are foreseen. The context of an accepted
graph always comes about. If a loader of rows of the tables fills it, a run of the data target fails
for the count of a table of a single row, just when one of them exports another number of rows, and a
run of the code target for the name of the style, just when there is no such style; otherwise it
writes its files, unless two of them have one path. -/
theorem foreseen_failures (g : TypeGraph) (config : TargetConfig) (tags : TagFilter)
    (options : Options) (loader : Loader)
    (hrows : ∀ t ∈ g.types.exportTables config.groups, ∀ main patch, loader t = .rows main patch →
      ∀ r ∈ main ++ patch, g.Row t r) :
    ∃ ctx, Context.make g config tags options = .ok ctx ∧
      ∀ loaded, ctx.load loader = .ok loaded → ∀ m,
        FailsOnly (fun c => ∃ t ∈ g.types.exportTables config.groups, ∃ count,
            Miscounts loader tags.excluded t count ∧ c = .data (.singleton t.fullName count))
          (∃ t ∈ g.types.exportTables config.groups, ∃ count,
            Miscounts loader tags.excluded t count)
          (DataTarget.target.runInto loaded m) ∧
        FailsOnly (· = .unknownStyle (Wrapper.styleName options))
          (Style.ofName? (Wrapper.styleName options) = none) (Wrapper.target.runInto loaded m) := by
  obtain ⟨closure, hmake⟩ := Context.exists_make g config tags options
  refine ⟨_, hmake, fun loaded hload m => ?_⟩
  have hdeclared : ∀ t ∈ g.types.exportTables config.groups, .table t ∈ g.types :=
    fun t => Declarations.declared_of_mem_exportTables
  unfold Context.load at hload
  split at hload
  · rename_i store hstore
    cases hload
    obtain ⟨hexcluded, hdata⟩ := Store.holds_of_load hstore fun t ht u hu hname => by
      cases g.eq_of_fullName_eq (hdeclared t ht) (hdeclared u hu) hname
      rfl
    have hloads : Context.Loads g tags.excluded loader ⟨g, config, tags.included, options,
        g.types.exportTables config.groups, closure, store⟩ :=
      ⟨rfl, hdeclared, fun _ => (Context.Over.of_make hmake).declared_bean, hexcluded, hdata, hrows⟩
    exact ⟨DataTarget.failsOnly hloads m, Wrapper.failsOnly hloads m⟩
  · cases hload

namespace Limits

/-- A table of a single row. -/
def table : TableDef := ⟨"", "TbLimits", "Limits", none, .one, [], none, none⟩

/-- The table, and the bean of its row. -/
def graph : TypeGraph :=
  ⟨[.bean ⟨"", "Limits", none, false, [], [⟨"level", .primitive .int, none⟩], none⟩, .table table],
    by decide⟩

/-- The record of a row. -/
def limits (level : Int32) : Record :=
  ⟨⟨"Limits", false, [("level", .int level)]⟩, [], some "limits"⟩

/-- A loader of two rows. -/
def loader : Loader := fun _ => .rows [limits 3, limits 5] []

/-- Two rows load, but are one too many to be exported, and no code style is called `plain`. -/
theorem two_rows_foreseen : ∃ ctx loaded,
    Context.make graph ⟨"client", "Tables", "", []⟩ ⟨[], []⟩ (.ofList [("codeStyle", "plain")]) =
      .ok ctx ∧ ctx.load loader = .ok loaded ∧
    (∃ label, DataTarget.target.runInto loaded ⟨"json", []⟩ =
      .error (.unitFailed label (.data (.singleton "TbLimits" 2)))) ∧
    ∃ label, Wrapper.target.runInto loaded ⟨"rust-json", []⟩ =
      .error (.unitFailed label (.unknownStyle "plain")) := by
  have hexported : graph.types.exportTables [] = [table] := rfl
  have hrows : ∀ t ∈ graph.types.exportTables [], ∀ main patch, loader t = .rows main patch →
      ∀ r ∈ main ++ patch, graph.Row t r := by
    intro t ht main patch hloaded r hr
    cases List.mem_singleton.1 (hexported ▸ ht)
    cases hloaded
    simp only [List.append_nil, List.mem_cons, List.not_mem_nil, or_false] at hr
    rcases hr with rfl | rfl
    · exact ⟨"limits", .object [("level", .int 3)], rfl⟩
    · exact ⟨"limits", .object [("level", .int 5)], rfl⟩
  obtain ⟨ctx, hmake, hruns⟩ := foreseen_failures graph ⟨"client", "Tables", "", []⟩ ⟨[], []⟩
    (.ofList [("codeStyle", "plain")]) loader hrows
  have hload : ∃ loaded, ctx.load loader = .ok loaded := by
    obtain ⟨closure, _, hctx⟩ := bind_eq_ok_iff.1 hmake
    cases hctx
    exact ⟨_, rfl⟩
  obtain ⟨loaded, hload⟩ := hload
  have hcount : Miscounts loader [] table 2 :=
    ⟨rfl, by decide, [limits 3, limits 5], [], [limits 3, limits 5], rfl, rfl, rfl⟩
  obtain ⟨label, _, ⟨t, ht, count, hmissed, rfl⟩, hdata⟩ :=
    (hruns loaded hload ⟨"json", []⟩).1.exact.2 ⟨table, List.mem_singleton_self table, 2, hcount⟩
  obtain ⟨label', _, rfl, hcode⟩ := (hruns loaded hload ⟨"rust-json", []⟩).2.exact.2 rfl
  obtain rfl : t = table := List.mem_singleton.1 ht
  obtain ⟨_, _, main, patch, records, hmain, hrecords, hlength⟩ := hmissed
  cases hmain
  cases hrecords
  cases hlength
  exact ⟨ctx, loaded, hmake, hload, ⟨label, hdata⟩, label', hcode⟩

end Limits

end ConfigTables
