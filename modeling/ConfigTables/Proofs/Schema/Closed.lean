import ConfigTables.Proofs.Schema.Export
import ConfigTables.Proofs.Schema.Hierarchy

/-!
    What an export needs reaches over whole trees of beans. A bean mentions its parent, its children
    and the types of its own fields, and nothing farther away. Step by step these mentions lead up to
    every bean that it stands below and down to every bean below it, and from the beans above it to
    the types of the fields that it inherits. So the closure of an export is closed under all that
    generators look at. -/

namespace ConfigTables.Declarations
variable {g : TypeGraph} {tables : List TableDef} {enabled : List String} {b c d : BeanDef}

theorem Needed.parent (h : g.types.Needed tables enabled (.bean c))
    (hparent : g.types.ParentOf b c) : g.types.Needed tables enabled (.bean b) := by
  have hnamed : g.types.named? b.fullName = some (.bean b) :=
    g.named?_eq_some_iff.2 ⟨hparent.parent, rfl⟩
  refine h.mention (List.mem_filter.2 ⟨?_, by simp [TypeDef.kind]⟩)
  refine List.mem_append_left _ (List.mem_append_left _ (Option.mem_toList.2 ?_))
  rw [hparent.named, Option.bind_some]
  exact hnamed

theorem Needed.child (h : g.types.Needed tables enabled (.bean b))
    (hparent : g.types.ParentOf b c) : g.types.Needed tables enabled (.bean c) := by
  have hchild : c.fullName ∈ g.types.children b.fullName :=
    g.mem_children_iff.2 ⟨c, hparent.child, hparent.named, rfl⟩
  have hnamed : g.types.named? c.fullName = some (.bean c) :=
    g.named?_eq_some_iff.2 ⟨hparent.child, rfl⟩
  refine h.mention (List.mem_filter.2 ⟨?_, by simp [TypeDef.kind]⟩)
  exact List.mem_append_left _ (List.mem_append_right _ (List.mem_filterMap.2 ⟨_, hchild, hnamed⟩))

/-- An export that needs a bean needs the beans below it. -/
theorem Needed.down (h : g.types.Needed tables enabled (.bean d)) (hbelow : g.types.Below d c) :
    g.types.Needed tables enabled (.bean c) := by
  induction hbelow with
  | single hparent => exact h.child hparent
  | tail _ hparent ih => exact ih.child hparent

/-- An export that needs a bean needs the beans above it. -/
theorem Needed.up (h : g.types.Needed tables enabled (.bean c)) (hbelow : g.types.Below d c) :
    g.types.Needed tables enabled (.bean d) := by
  induction hbelow with
  | single hparent => exact h.parent hparent
  | tail _ hparent ih => exact ih (h.parent hparent)

/-- An export that needs a bean needs the beans that declare its fields. -/
theorem Needed.owner (h : g.types.Needed tables enabled (.bean b)) {f : BeanDef × FieldDef}
    (hf : f ∈ g.types.hierarchyFields b) : g.types.Needed tables enabled (.bean f.1) := by
  rw [hierarchyFields, List.mem_flatMap] at hf
  obtain ⟨owner, howner, hf⟩ := hf
  obtain ⟨field, _, rfl⟩ := List.mem_map.1 hf
  rw [List.mem_reverse, List.mem_cons] at howner
  rcases howner with rfl | howner
  · exact h
  · exact h.up (g.below_of_mem_ancestorsWithin h.mem howner)

/-- An export that needs a bean needs what its fields mention, those it inherits included. -/
theorem Needed.fieldRef (h : g.types.Needed tables enabled (.bean b)) {f : BeanDef × FieldDef}
    (hf : f ∈ g.types.hierarchyFields b) {name : String} (hname : name ∈ f.2.type.names)
    {r : TypeDef} (href : g.types.fieldRef? f.1 name = some r) : g.types.Needed tables enabled r := by
  -- tables are not followed, but a field of an accepted graph mentions none
  have hkind : r.kind ≠ .table := by
    have hvalue := (g.fields_checked h.mem).2 f hf name hname
    rw [isValueType, href] at hvalue
    cases r <;> simp [TypeDef.kind] at hvalue ⊢
  refine (h.owner hf).mention (List.mem_filter.2 ⟨?_, by simpa using hkind⟩)
  refine List.mem_append_right _ (List.mem_flatMap.2 ⟨f.2, ?_, ?_⟩)
  · exact (g.declared_of_mem_hierarchyFields h.mem hf).2
  · exact List.mem_filterMap.2 ⟨name, hname, href⟩

/-- The entries of a closure: what the export needs, and under each name the last of the tables of
that name. -/
theorem entries_exportClosure {closure : ExportClosure}
    (hrows : ∀ t ∈ tables, ∃ b, g.types.bean? t.valueType = some b)
    (h : g.types.exportClosure tables enabled = .ok closure) : closure.Ascending ∧
      ∀ name r, (name, r) ∈ closure.entries ↔ r.fullName = name ∧
        (g.types.Needed tables enabled r ∨ ∃ t, r = .table t ∧ lastNamed? tables name = some t) := by
  by_cases hclash : g.types.NameClash tables enabled
  · obtain ⟨e, he, _⟩ := exportClosure_of_clash hrows hclash
    cases h.symm.trans he
  · obtain ⟨c, hc, hascending, hentries⟩ := exportClosure_of_no_clash hrows hclash
    cases h.symm.trans hc
    exact ⟨hascending, hentries⟩

/-- What a closure holds under a name. -/
theorem get?_exportClosure_iff {closure : ExportClosure}
    (hrows : ∀ t ∈ tables, ∃ b, g.types.bean? t.valueType = some b)
    (h : g.types.exportClosure tables enabled = .ok closure) {name : String} {r : TypeDef} :
    closure.get? name = some r ↔ r.fullName = name ∧ (g.types.Needed tables enabled r ∨
      ∃ t, r = .table t ∧ lastNamed? tables name = some t) := by
  obtain ⟨hascending, hentries⟩ := entries_exportClosure hrows h
  rw [← NameMap.mem_entries_iff hascending]
  exact hentries name r

/-- The export of tables of the graph comes about and holds what it needs. -/
theorem exists_exportClosure (enabled : List String) (hown : ∀ t ∈ tables, .table t ∈ g.types) :
    ∃ closure, g.types.exportClosure tables enabled = .ok closure ∧
      ∀ r, g.types.Needed tables enabled r → closure.get? r.fullName = some r := by
  have hfree : ¬g.types.NameClash tables enabled := not_nameClash_of_declared hown
  have hrows : ∀ t ∈ tables, ∃ b, g.types.bean? t.valueType = some b :=
    fun t ht => g.exists_row (hown t ht)
  obtain ⟨closure, hclosure, _⟩ := exportClosure_of_no_clash hrows hfree
  exact ⟨closure, hclosure, fun r hr => (get?_exportClosure_iff hrows hclosure).2 ⟨rfl, .inl hr⟩⟩

/-- What the type of a field mentions is declared, and held under its full name. -/
def HoldsMentioned (ds : Declarations) (closure : ExportClosure) (f : BeanDef × FieldDef) : Prop :=
  ∀ name ∈ f.2.type.names, ∃ r, ds.fieldRef? f.1 name = some r ∧
    closure.get? r.fullName = some r

/-- A closure in which generators find whatever they look at: with a bean its whole tree and what its
fields mention, those it inherits included, and with a table its row bean and what its key mentions. -/
structure ClosedUnder (ds : Declarations) (closure : ExportClosure) : Prop where
  tree : ∀ name b, closure.get? name = some (.bean b) → ∀ root, root = b ∨ ds.Below root b →
    closure.get? root.fullName = some (.bean root) ∧
      ∀ c, ds.Below root c → closure.get? c.fullName = some (.bean c)
  fields : ∀ name b, closure.get? name = some (.bean b) → ∀ f ∈ ds.hierarchyFields b,
    ds.HoldsMentioned closure f
  row : ∀ name t, closure.get? name = some (.table t) →
    ∃ b, ds.bean? t.valueType = some b ∧ closure.get? b.fullName = some (.bean b)
  key : ∀ name t, closure.get? name = some (.table t) → ∀ f, ds.keyField? t = some f →
    ds.HoldsMentioned closure f

/-- What the fields of a needed bean mention is held. -/
theorem Needed.holdsMentioned {closure : ExportClosure}
    (hheld : ∀ r, g.types.Needed tables enabled r → closure.get? r.fullName = some r)
    (h : g.types.Needed tables enabled (.bean b)) {f : BeanDef × FieldDef}
    (hf : f ∈ g.types.hierarchyFields b) : g.types.HoldsMentioned closure f := by
  intro name hname
  have hvalue := (g.fields_checked h.mem).2 f hf name hname
  rw [isValueType] at hvalue
  cases href : g.types.fieldRef? f.1 name with
  | none => simp [href] at hvalue
  | some r => exact ⟨r, rfl, hheld r (h.fieldRef hf hname href)⟩

/-- The closure of an export is closed under all that generators look at, whichever tables with a row
bean of the graph are exported. -/
theorem exportClosure_closed (g : TypeGraph) (tables : List TableDef) (enabled : List String)
    (closure : ExportClosure) (hrows : ∀ t ∈ tables, ∃ b, g.types.bean? t.valueType = some b)
    (h : g.types.exportClosure tables enabled = .ok closure) : g.types.ClosedUnder closure := by
  have hheld : ∀ r, g.types.Needed tables enabled r → closure.get? r.fullName = some r :=
    fun r hr => (get?_exportClosure_iff hrows h).2 ⟨rfl, .inl hr⟩
  have hbean : ∀ name b, closure.get? name = some (.bean b) →
      g.types.Needed tables enabled (.bean b) := by
    intro name b hget
    rcases ((get?_exportClosure_iff hrows h).1 hget).2 with hneeded | ⟨t, ht, _⟩
    · exact hneeded
    · cases ht
  -- a table is one of the listed ones, so it makes the export need its row bean
  have hrow : ∀ name t, closure.get? name = some (.table t) →
      ∃ b, g.types.bean? t.valueType = some b ∧ g.types.Needed tables enabled (.bean b) := by
    intro name t hget
    rcases ((get?_exportClosure_iff hrows h).1 hget).2 with hneeded | ⟨u, hu, hlast⟩
    · exact absurd rfl hneeded.kind_ne
    · cases hu
      obtain ⟨ht, _⟩ := lastNamed?_eq_some hlast
      obtain ⟨b, hb⟩ := hrows t ht
      exact ⟨b, hb, .row ht hb⟩
  refine ⟨fun name b hget root hroot => ?_, fun name b hget f hf => ?_, fun name t hget => ?_,
    fun name t hget f hf => ?_⟩
  · have hneeded : g.types.Needed tables enabled (.bean root) := by
      rcases hroot with rfl | hbelow
      · exact hbean name root hget
      · exact (hbean name b hget).up hbelow
    exact ⟨hheld _ hneeded, fun c hc => hheld _ (hneeded.down hc)⟩
  · exact (hbean name b hget).holdsMentioned hheld hf
  · obtain ⟨b, hb, hneeded⟩ := hrow name t hget
    exact ⟨b, hb, hheld _ hneeded⟩
  · obtain ⟨b, hb, hneeded⟩ := hrow name t hget
    obtain ⟨b', hb', hmem, _⟩ := g.keyField?_eq_some hf
    cases hb.symm.trans hb'
    exact hneeded.holdsMentioned hheld hmem

namespace Animals

/-- A bean of the animals. -/
def bean (name : String) (parent : Option String) (fields : List FieldDef) : BeanDef :=
  ⟨"zoo", name, parent, false, [], fields, none⟩

/-- Every animal has a keeper. -/
def animal : BeanDef := bean "Animal" none [⟨"keeper", .named "Keeper", none⟩]

/-- One kind of animal. -/
def cat : BeanDef := bean "Cat" (some "zoo.Animal") []

/-- Another kind of animal. -/
def dog : BeanDef := bean "Dog" (some "zoo.Animal") [⟨"friends", .sequence .list (.named "Cat"), none⟩]

/-- The bean of the keepers. -/
def keeper : BeanDef := bean "Keeper" none []

/-- A table of cats that the graph does not declare. -/
def cats : TableDef := ⟨"", "TbCat", "zoo.Cat", some "keeper", .list, [], none, none⟩

/-- Animals and their keepers. -/
def graph : TypeGraph where
  types := [.bean animal, .bean cat, .bean dog, .bean keeper]
  consistent := by decide

/-- With a table of cats, the dogs are exported, and the keepers. -/
theorem cats_closed : ∃ closure, (∀ t ∈ [cats], ∃ b, graph.types.bean? t.valueType = some b) ∧
    graph.types.exportClosure [cats] [] = .ok closure ∧
    closure.get? "zoo.Dog" = some (.bean dog) ∧ closure.get? "zoo.Keeper" = some (.bean keeper) := by
  have hrows : ∀ t ∈ [cats], ∃ b, graph.types.bean? t.valueType = some b := by
    intro t ht
    exact ⟨cat, List.mem_singleton.1 ht ▸ by decide⟩
  have hneeded : graph.types.Needed [cats] [] (.bean cat) :=
    .row (t := cats) (by decide) (by decide)
  have hfree : ¬graph.types.NameClash [cats] [] := by
    rintro ⟨t, ht, d, hd, hname⟩
    cases List.mem_singleton.1 ht
    have hnames : ∀ d ∈ graph.types, d.fullName ≠ cats.fullName := by decide
    exact hnames d hd.mem hname.symm
  obtain ⟨closure, hclosure, _⟩ := exportClosure_of_no_clash hrows hfree
  have hclosed := exportClosure_closed graph [cats] [] closure hrows hclosure
  have hcat : closure.get? "zoo.Cat" = some (.bean cat) :=
    (get?_exportClosure_iff hrows hclosure).2 ⟨by decide, .inl hneeded⟩
  have hanimal : graph.types.Below animal cat := .single (by decide)
  obtain ⟨hroot, hbelow⟩ := hclosed.tree _ _ hcat animal (.inr hanimal)
  obtain ⟨r, href, hget⟩ := hclosed.fields _ _ hcat (animal, ⟨"keeper", .named "Keeper", none⟩)
    (by decide) "Keeper" (by decide)
  cases href
  exact ⟨closure, hrows, hclosure, hbelow dog (.single (by decide)), hget⟩

end Animals

end ConfigTables.Declarations
