import ConfigTables.Emit.Context
import ConfigTables.Proofs.Result
import ConfigTables.Proofs.Schema.Closed

/-!
    What a context of a graph holds, whatever data were added to it since it was made: the tables of
    the enabled groups, and in its closure what an export of these tables needs. -/

namespace ConfigTables.Context
variable {g : TypeGraph} {ctx : Context} {b : BeanDef}

/-- The context of an accepted graph always comes about. -/
theorem exists_make (g : TypeGraph) (config : TargetConfig) (tags : TagFilter) (options : Options) :
    ∃ closure : ExportClosure, make g config tags options = .ok ⟨g, config, tags.included, options,
      g.types.exportTables config.groups, closure, .empty tags.excluded⟩ := by
  obtain ⟨closure, hclosure, _⟩ := Declarations.exists_exportClosure config.groups
    fun (_ : TableDef) => Declarations.declared_of_mem_exportTables
  exact ⟨closure, bind_eq_ok_iff.2 ⟨closure, hclosure, rfl⟩⟩

/-- A context of a graph: as it is made for an output, with any data added since. -/
def Over (g : TypeGraph) (ctx : Context) : Prop :=
  ∃ config tags options made, make g config tags options = .ok made ∧
    ctx = { made with store := ctx.store }

namespace Over

theorem of_make {config : TargetConfig} {tags : TagFilter} {options : Options}
    (h : make g config tags options = .ok ctx) : ctx.Over g := ⟨config, tags, options, ctx, h, rfl⟩

theorem load {loader : Loader} {loaded : Context} (h : ctx.Over g)
    (hload : ctx.load loader = .ok loaded) : loaded.Over g := by
  obtain ⟨config, tags, options, made, hmade, hctx⟩ := h
  unfold Context.load at hload
  split at hload
  · cases hload
    exact ⟨config, tags, options, made, hmade, by rw [hctx]⟩
  · cases hload

theorem addRecords {t : TableDef} {main patch : List Record} {added : Context} (h : ctx.Over g)
    (hadd : ctx.addRecords t main patch = .ok added) : added.Over g := by
  obtain ⟨config, tags, options, made, hmade, hctx⟩ := h
  obtain ⟨store, _, hadd⟩ := bind_eq_ok_iff.1 hadd
  cases hadd
  exact ⟨config, tags, options, made, hmade, by rw [hctx]⟩

/-- What is fixed when a context is made. -/
theorem fixed (h : ctx.Over g) : ctx.graph = g ∧
    ctx.exportTables = g.types.exportTables ctx.target.groups ∧
    g.types.exportClosure ctx.exportTables ctx.target.groups = .ok ctx.closure := by
  obtain ⟨config, tags, options, made, hmade, hctx⟩ := h
  obtain ⟨closure, hclosure, hmade⟩ := bind_eq_ok_iff.1 hmade
  cases hmade
  rw [hctx]
  exact ⟨rfl, rfl, hclosure⟩

theorem declared_table (h : ctx.Over g) : ∀ t ∈ ctx.exportTables, .table t ∈ g.types := by
  rw [h.fixed.2.1]
  exact fun _ => Declarations.declared_of_mem_exportTables

/-- The entries of the closure: what the export of the tables needs, and the tables. -/
theorem entries (h : ctx.Over g) : ctx.closure.Ascending ∧
    ∀ name d, (name, d) ∈ ctx.closure.entries ↔ d.fullName = name ∧
      (g.types.Needed ctx.exportTables ctx.target.groups d ∨
        ∃ t, d = .table t ∧ lastNamed? ctx.exportTables name = some t) :=
  Declarations.entries_exportClosure (fun t ht => g.exists_row (h.declared_table t ht)) h.fixed.2.2

/-- Apart from the tables, the closure has what the export of the tables needs. -/
theorem mem_values_iff (h : ctx.Over g) {d : TypeDef} (hkind : d.kind ≠ .table) :
    d ∈ ctx.closure.values ↔ g.types.Needed ctx.exportTables ctx.target.groups d := by
  rw [NameMap.values, List.mem_map]
  constructor
  · rintro ⟨⟨name, d⟩, hentry, rfl⟩
    refine ((h.entries.2 name _).1 hentry).2.resolve_right ?_
    rintro ⟨t, rfl, _⟩
    exact hkind rfl
  · exact fun hneeded => ⟨(d.fullName, d), (h.entries.2 _ _).2 ⟨rfl, .inl hneeded⟩, rfl⟩

/-- The exported beans are those that the export of the tables needs. -/
theorem mem_beans_iff (h : ctx.Over g) :
    b ∈ ctx.closure.beans ↔ g.types.Needed ctx.exportTables ctx.target.groups (.bean b) := by
  rw [ExportClosure.beans, Declarations.mem_filterMap_bean?_iff]
  exact h.mem_values_iff (by simp [TypeDef.kind])

/-- All enums are exported. -/
theorem mem_enums_iff (h : ctx.Over g) {e : EnumDef} :
    e ∈ ctx.closure.enums ↔ .enum e ∈ g.types := by
  have henum : e ∈ ctx.closure.values.filterMap TypeDef.enum? ↔ .enum e ∈ ctx.closure.values := by
    rw [List.mem_filterMap]
    constructor
    · rintro ⟨d, hd, he⟩
      cases d <;> cases he
      exact hd
    · exact fun hd => ⟨.enum e, hd, rfl⟩
  rw [ExportClosure.enums, henum, h.mem_values_iff (by simp [TypeDef.kind])]
  exact ⟨fun hneeded => hneeded.mem, .enum⟩

/-- An exported bean stands in the closure under its full name. -/
theorem get?_of_mem_beans (h : ctx.Over g) (hb : b ∈ ctx.closure.beans) :
    ctx.closure.get? b.fullName = some (.bean b) :=
  (NameMap.mem_entries_iff h.entries.1).1
    ((h.entries.2 _ _).2 ⟨rfl, .inl (h.mem_beans_iff.1 hb)⟩)

theorem declared_bean (h : ctx.Over g) (hb : b ∈ ctx.closure.beans) : .bean b ∈ g.types :=
  (h.mem_beans_iff.1 hb).mem

end Over

end ConfigTables.Context
