import ConfigTables.Proofs.NameMap
import ConfigTables.Proofs.Schema.Accepted
import ConfigTables.Schema.Closure

/-!
    An export holds what it needs and nothing else. `Needed` says which declarations an export needs:
    all enums, the beans of an enabled group, the row beans of the exported tables, and what these
    mention, directly or through others. `exportClosure` goes through the tables one by one and
    collects into one map; `Collected` is what is true of that map all along, with the declarations
    that are still pending. A table in the map never hides a declaration: where their names meet,
    whichever comes second, the export is refused. -/

namespace ConfigTables

/-- The last table of a list with a full name. -/
def lastNamed? (tables : List TableDef) (name : String) : Option TableDef :=
  tables.reverse.find? (·.fullName = name)

theorem lastNamed?_concat (tables : List TableDef) (t : TableDef) (name : String) :
    lastNamed? (tables ++ [t]) name = if t.fullName = name then some t else lastNamed? tables name := by
  rw [lastNamed?, List.reverse_concat, List.find?_cons]
  by_cases h : t.fullName = name <;> simp [h, lastNamed?]

theorem lastNamed?_eq_some {tables : List TableDef} {name : String} {t : TableDef}
    (h : lastNamed? tables name = some t) : t ∈ tables ∧ t.fullName = name :=
  ⟨List.mem_reverse.1 (List.mem_of_find?_eq_some h), by simpa using List.find?_some h⟩

theorem exists_lastNamed? {tables : List TableDef} {t : TableDef} (ht : t ∈ tables) :
    ∃ u, lastNamed? tables t.fullName = some u := by
  rw [← Option.isSome_iff_exists, lastNamed?, List.find?_isSome]
  exact ⟨t, List.mem_reverse.2 ht, by simp⟩

namespace Declarations

/-- What an export of some tables and groups needs. -/
inductive Needed (ds : Declarations) (tables : List TableDef) (enabled : List String) :
    TypeDef → Prop
  | enum {e : EnumDef} : .enum e ∈ ds → Needed ds tables enabled (.enum e)
  | grouped {b : BeanDef} {group : String} : .bean b ∈ ds → group ∈ b.groups → group ∈ enabled →
      Needed ds tables enabled (.bean b)
  | row {t : TableDef} {b : BeanDef} : t ∈ tables → ds.bean? t.valueType = some b →
      Needed ds tables enabled (.bean b)
  | mention {d r : TypeDef} : Needed ds tables enabled d → r ∈ ds.valueRefs d →
      Needed ds tables enabled r

/-- What a closure holds on the way: under each name the declaration of that name, which is needed or
the last of the tables `done`, and all that a needed one mentions, unless that is still `pending`. -/
structure Collected (ds : Declarations) (tables : List TableDef) (enabled : List String)
    (done : List TableDef) (pending : List TypeDef) (c : ExportClosure) : Prop where
  ascending : c.Ascending
  named : ∀ name d, c.get? name = some d → d.fullName = name
  needed : ∀ name d, c.get? name = some d → d.kind ≠ .table → ds.Needed tables enabled d
  listed : ∀ name t, c.get? name = some (.table t) ↔ lastNamed? done name = some t
  closed : ∀ name d, c.get? name = some d → d.kind ≠ .table → ∀ r ∈ ds.valueRefs d,
    c.get? r.fullName = some r ∨ r ∈ pending

/-- The refusal of a table that has the name of a needed declaration. -/
def Collides (ds : Declarations) (tables : List TableDef) (enabled : List String)
    (e : SchemaError) : Prop :=
  ∃ t ∈ tables, ∃ d, ds.Needed tables enabled d ∧ t.fullName = d.fullName ∧
    (e = .nameCollision t.fullName d.kind .table ∨ e = .nameCollision t.fullName .table d.kind)

/-- A later closure holds what an earlier one held, except that a table may give way to another. -/
def Keeps (c c' : ExportClosure) : Prop :=
  ∀ name d, c.get? name = some d → d.kind ≠ .table → c'.get? name = some d

/-- What collecting `wanted` on top of `c` may come to: a closure that holds them and has nothing
pending, or the refusal of a collision. -/
def Collects (ds : Declarations) (tables : List TableDef) (enabled : List String)
    (done : List TableDef) (c : ExportClosure) (wanted : List TypeDef) :
    Except SchemaError ExportClosure → Prop
  | .ok c' => ds.Collected tables enabled done [] c' ∧ Keeps c c' ∧
      ∀ d ∈ wanted, c'.get? d.fullName = some d
  | .error e => ds.Collides tables enabled e

variable {ds : Declarations} {tables done : List TableDef} {enabled : List String}
  {c : ExportClosure} {d r : TypeDef}

theorem mem_of_mem_valueRefs (h : r ∈ ds.valueRefs d) : r ∈ ds :=
  mem_of_mem_refs (List.mem_filter.1 h).1

theorem kind_of_mem_valueRefs (h : r ∈ ds.valueRefs d) : r.kind ≠ .table := by
  simpa using (List.mem_filter.1 h).2

theorem map_val_pendingRefs (ds : Declarations) (d : TypeDef) :
    (ds.pendingRefs d).map (·.val) = (ds.valueRefs d).reverse := by
  rw [pendingRefs, List.map_reverse]
  congr 1
  exact List.attachWith_map_subtype_val _

theorem Needed.kind_ne (h : ds.Needed tables enabled d) : d.kind ≠ .table := by
  cases h with
  | enum _ => simp [TypeDef.kind]
  | grouped _ _ _ => simp [TypeDef.kind]
  | row _ _ => simp [TypeDef.kind]
  | mention _ hr => exact kind_of_mem_valueRefs hr

theorem Needed.mem (h : ds.Needed tables enabled d) : d ∈ ds := by
  cases h with
  | enum h => exact h
  | grouped h _ _ => exact h
  | row _ h =>
    obtain ⟨d, hd, hb⟩ := Option.bind_eq_some_iff.1 h
    cases d <;> cases hb
    exact mem_of_named?_eq_some hd
  | mention _ hr => exact mem_of_mem_valueRefs hr

/-- What the map holds under the name of a needed declaration is that declaration or a table. -/
theorem Collected.eq_of_get? {g : TypeGraph} {pending : List TypeDef} {e : TypeDef}
    (h : g.types.Collected tables enabled done pending c) (hd : g.types.Needed tables enabled d)
    (hget : c.get? d.fullName = some e) (he : e.kind ≠ .table) : e = d :=
  g.eq_of_fullName_eq (h.needed _ _ hget he).mem hd.mem (h.named _ _ hget)

theorem Collected.wait (h : ds.Collected tables enabled done [] c) (pending : List TypeDef) :
    ds.Collected tables enabled done pending c :=
  ⟨h.ascending, h.named, h.needed, h.listed, fun name e he hkind r hr =>
    .inl ((h.closed name e he hkind r hr).resolve_right (by simp))⟩

theorem Collected.skip {pending : List TypeDef}
    (h : ds.Collected tables enabled done (d :: pending) c) (hget : c.get? d.fullName = some d) :
    ds.Collected tables enabled done pending c := by
  refine ⟨h.ascending, h.named, h.needed, h.listed, fun name e he hkind r hr => ?_⟩
  rcases h.closed name e he hkind r hr with hheld | hpending
  · exact .inl hheld
  · rcases List.mem_cons.1 hpending with rfl | hpending
    · exact .inl hget
    · exact .inr hpending

theorem get?_insert_of_new {name : String} {e : TypeDef} (hnew : c.get? d.fullName = none)
    (he : c.get? name = some e) : (c.insert d.fullName d).get? name = some e := by
  refine NameMap.get?_insert_eq_some_iff.2 (.inr ⟨?_, he⟩)
  rintro rfl
  simp [hnew] at he

theorem Collected.named_insert {pending : List TypeDef}
    (h : ds.Collected tables enabled done pending c) (d : TypeDef) (name : String) (e : TypeDef)
    (he : (c.insert d.fullName d).get? name = some e) : e.fullName = name := by
  rcases NameMap.get?_insert_eq_some_iff.1 he with ⟨rfl, rfl⟩ | ⟨_, he⟩
  · rfl
  · exact h.named name e he

/-- Taking the first pending declaration puts what it mentions in its place. -/
theorem Collected.take {pending : List TypeDef}
    (h : ds.Collected tables enabled done (d :: pending) c) (hd : ds.Needed tables enabled d)
    (hnew : c.get? d.fullName = none) :
    ds.Collected tables enabled done ((ds.valueRefs d).reverse ++ pending)
      (c.insert d.fullName d) := by
  refine ⟨h.ascending.insert _ _, h.named_insert d, ?_, ?_, ?_⟩
  · intro name e he hkind
    rcases NameMap.get?_insert_eq_some_iff.1 he with ⟨rfl, rfl⟩ | ⟨_, he⟩
    · exact hd
    · exact h.needed name e he hkind
  · intro name t
    rw [← h.listed name t]
    constructor
    · intro ht
      rcases NameMap.get?_insert_eq_some_iff.1 ht with ⟨_, rfl⟩ | ⟨_, ht⟩
      · exact absurd rfl hd.kind_ne
      · exact ht
    · exact get?_insert_of_new hnew
  · intro name e he hkind r hr
    rcases NameMap.get?_insert_eq_some_iff.1 he with ⟨rfl, rfl⟩ | ⟨_, he⟩
    · exact .inr (List.mem_append_left _ (List.mem_reverse.2 hr))
    · rcases h.closed name e he hkind r hr with hheld | hpending
      · exact .inl (get?_insert_of_new hnew hheld)
      · rcases List.mem_cons.1 hpending with rfl | hpending
        · exact .inl (by simp [NameMap.get?_insert])
        · exact .inr (List.mem_append_right _ hpending)

theorem Keeps.refl (c : ExportClosure) : Keeps c c := fun _ _ hget _ => hget

theorem keeps_insert (hnew : c.get? d.fullName = none) : Keeps c (c.insert d.fullName d) :=
  fun _ _ he _ => get?_insert_of_new hnew he

/-- What is collected on top of a later closure is collected on top of an earlier one, together with
what the later one holds. -/
theorem Collects.after {c₁ : ExportClosure} {wanted : List TypeDef}
    {result : Except SchemaError ExportClosure}
    (h : ds.Collects tables enabled done c₁ wanted result) (held : List TypeDef)
    (hkeeps : Keeps c c₁) (hheld : ∀ e ∈ held, c₁.get? e.fullName = some e ∧ e.kind ≠ .table) :
    ds.Collects tables enabled done c (held ++ wanted) result := by
  cases result with
  | error e => exact h
  | ok c' =>
    obtain ⟨hc', hlater, hwanted⟩ := h
    refine ⟨hc', fun name e he hkind => hlater name e (hkeeps name e he hkind) hkind, fun e he => ?_⟩
    rcases List.mem_append.1 he with he | he
    · exact hlater _ _ (hheld e he).1 (hheld e he).2
    · exact hwanted e he

theorem Collects.bind {done' : List TableDef} {first wanted : List TypeDef}
    {result : Except SchemaError ExportClosure}
    {next : ExportClosure → Except SchemaError ExportClosure}
    (h : ds.Collects tables enabled done c first result) (hfirst : ∀ e ∈ first, e.kind ≠ .table)
    (hnext : ∀ c₁, ds.Collected tables enabled done [] c₁ →
      ds.Collects tables enabled done' c₁ wanted (next c₁)) :
    ds.Collects tables enabled done' c (first ++ wanted) (result >>= next) := by
  cases result with
  | error e => exact h
  | ok c₁ => exact (hnext c₁ h.1).after first h.2.1 fun e he => ⟨h.2.2 e he, hfirst e he⟩

theorem Collects.mono {wanted wanted' : List TypeDef} {result : Except SchemaError ExportClosure}
    (h : ds.Collects tables enabled done c wanted result) (hsub : wanted' ⊆ wanted) :
    ds.Collects tables enabled done c wanted' result := by
  cases result with
  | error e => exact h
  | ok c' => exact ⟨h.1, h.2.1, fun e he => h.2.2 e (hsub he)⟩

/-- Working off the pending declarations collects them. -/
theorem collects_reach {g : TypeGraph} (hdone : done ⊆ tables) (c : ExportClosure)
    (pending : List { d : TypeDef // d ∈ g.types })
    (h : g.types.Collected tables enabled done (pending.map (·.val)) c)
    (hneeded : ∀ d ∈ pending, g.types.Needed tables enabled d.val) :
    g.types.Collects tables enabled done c (pending.map (·.val)) (g.types.reach c pending) := by
  induction c, pending using reach.induct with
  | case1 c =>
    rw [reach]
    exact ⟨h, .refl c, by simp⟩
  | case2 c d hd pending existing hget hkind ih =>
    rw [List.forall_mem_cons] at hneeded
    have hsame : existing = d := h.eq_of_get? hneeded.1 hget (hkind ▸ hneeded.1.kind_ne)
    subst hsame
    have hreach : g.types.reach c (⟨existing, hd⟩ :: pending) = g.types.reach c pending := by
      rw [reach]
      split <;> simp_all
    rw [hreach]
    refine (ih (h.skip hget) hneeded.2).after [existing] (.refl c) ?_
    simpa using ⟨hget, hneeded.1.kind_ne⟩
  | case3 c d hd pending existing hget hkind =>
    rw [List.forall_mem_cons] at hneeded
    have hreach : g.types.reach c (⟨d, hd⟩ :: pending) =
        .error (.nameCollision d.fullName existing.kind d.kind) := by
      rw [reach]
      split <;> simp_all
    rw [hreach]
    -- two declarations of one name are the same, so what stands in the way is a table
    cases existing with
    | table t =>
      have ht := lastNamed?_eq_some ((h.listed _ t).1 hget)
      exact ⟨t, hdone ht.1, d, hneeded.1, ht.2, .inr (by rw [ht.2]; rfl)⟩
    | enum e => exact absurd (congrArg _ (h.eq_of_get? hneeded.1 hget (by simp [TypeDef.kind]))) hkind
    | bean b => exact absurd (congrArg _ (h.eq_of_get? hneeded.1 hget (by simp [TypeDef.kind]))) hkind
  | case4 c d hd pending hnew ih =>
    rw [List.forall_mem_cons] at hneeded
    have hreach : g.types.reach c (⟨d, hd⟩ :: pending) =
        g.types.reach (c.insert d.fullName d) (g.types.pendingRefs d ++ pending) := by
      rw [reach]
      split <;> simp_all
    have hrefs : (g.types.pendingRefs d ++ pending).map (·.val) =
        (g.types.valueRefs d).reverse ++ pending.map (·.val) := by
      rw [List.map_append, map_val_pendingRefs]
    have hmentioned : ∀ r ∈ g.types.pendingRefs d ++ pending,
        g.types.Needed tables enabled r.val := by
      intro r hr
      rcases List.mem_append.1 hr with hr | hr
      · refine hneeded.1.mention ?_
        rw [← List.mem_reverse, ← map_val_pendingRefs]
        exact List.mem_map_of_mem hr
      · exact hneeded.2 r hr
    have hcollects := ih (hrefs ▸ h.take hneeded.1 hnew) hmentioned
    rw [hreach]
    refine ((hrefs ▸ hcollects).after [d] (keeps_insert hnew) ?_).mono ?_
    · simpa [NameMap.get?_insert] using hneeded.1.kind_ne
    · simp

/-! ### The declarations that are needed by themselves -/

theorem needed_of_isRoot (hd : d ∈ ds) (h : isRoot enabled d) : ds.Needed tables enabled d := by
  cases d with
  | enum e => exact .enum hd
  | bean b =>
    obtain ⟨group, hgroup, henabled⟩ := List.any_eq_true.1 h
    exact .grouped hd hgroup (by simpa using henabled)
  | table t => simp [isRoot] at h

theorem collects_reachRoots {g : TypeGraph} (c : ExportClosure)
    (roots : List { d : TypeDef // d ∈ g.types })
    (h : g.types.Collected tables enabled [] [] c) :
    g.types.Collects tables enabled [] c ((roots.map (·.val)).filter (isRoot enabled))
      (g.types.reachRoots enabled c roots) := by
  induction roots generalizing c with
  | nil =>
    rw [reachRoots]
    exact ⟨h, .refl c, by simp⟩
  | cons d rest ih =>
    rw [reachRoots, List.map_cons, List.filter_cons]
    by_cases hroot : isRoot enabled d.val
    · have hd : g.types.Needed tables enabled d.val := needed_of_isRoot d.property hroot
      rw [if_pos hroot]
      cases hget : c.get? d.val.fullName with
      | some held =>
        -- no table has been listed yet, so what is held is the declaration itself
        have hkind : held.kind ≠ .table := by
          cases held with
          | table t => simpa [lastNamed?] using (h.listed _ t).1 hget
          | enum e => simp [TypeDef.kind]
          | bean b => simp [TypeDef.kind]
        have hsame := h.eq_of_get? hd hget hkind
        rw [if_pos (by simp [NameMap.contains, hget])]
        refine (ih c h).after [d.val] (.refl c) ?_
        simpa using ⟨hsame ▸ hget, hd.kind_ne⟩
      | none =>
        rw [if_neg (by simp [NameMap.contains, hget, hroot])]
        refine (collects_reach (by simp) c [d] (h.wait _) (by simpa using hd)).bind ?_ ih
        simpa using hd.kind_ne
    · rw [if_neg hroot, if_pos (by simp [hroot])]
      exact ih c h

/-! ### The tables -/

/-- Listing a table whose name no other declaration has. -/
theorem Collected.list {t : TableDef} (h : ds.Collected tables enabled done [] c)
    (hfree : ∀ e, c.get? t.fullName = some e → e.kind = .table) :
    ds.Collected tables enabled (done ++ [t]) [] (c.insert t.fullName (.table t)) ∧
      Keeps c (c.insert t.fullName (.table t)) := by
  have hkeeps : Keeps c (c.insert t.fullName (.table t)) := by
    intro name e he hkind
    refine NameMap.get?_insert_eq_some_iff.2 (.inr ⟨?_, he⟩)
    rintro rfl
    exact hkind (hfree e he)
  refine ⟨⟨h.ascending.insert _ _, h.named_insert (.table t), ?_, ?_, ?_⟩, hkeeps⟩
  · intro name e he hkind
    rcases NameMap.get?_insert_eq_some_iff.1 he with ⟨rfl, rfl⟩ | ⟨_, he⟩
    · exact absurd rfl hkind
    · exact h.needed name e he hkind
  · intro name u
    rw [lastNamed?_concat, NameMap.get?_insert]
    split
    · simp
    · exact h.listed name u
  · intro name e he hkind r hr
    rcases NameMap.get?_insert_eq_some_iff.1 he with ⟨rfl, rfl⟩ | ⟨_, he⟩
    · exact absurd rfl hkind
    · refine .inl (hkeeps _ _ ?_ (kind_of_mem_valueRefs hr))
      exact (h.closed name e he hkind r hr).resolve_right (by simp)

theorem collects_reachTable {g : TypeGraph} {t : TableDef} {b : BeanDef} (hdone : done ⊆ tables)
    (ht : t ∈ tables) (hb : g.types.bean? t.valueType = some b)
    (h : g.types.Collected tables enabled done [] c) :
    g.types.Collects tables enabled (done ++ [t]) c [.bean b] (g.types.reachTable c t) := by
  have hneeded : g.types.Needed tables enabled (.bean b) := .row ht hb
  have hnamed : g.types.named? t.valueType = some (.bean b) :=
    g.named?_eq_some_iff.2 (g.bean?_eq_some_iff.1 hb)
  rw [reachTable]
  cases hcollision : (c.get? t.fullName).filter (·.kind ≠ .table) with
  | some existing =>
    obtain ⟨hget, hkind⟩ := Option.filter_eq_some_iff.1 hcollision
    rw [decide_eq_true_eq] at hkind
    exact ⟨t, ht, existing, h.needed _ _ hget hkind, (h.named _ _ hget).symm, .inl rfl⟩
  | none =>
    have hfree : ∀ e, c.get? t.fullName = some e → e.kind = .table := by
      intro e he
      simpa [he] using Option.filter_eq_none_iff.1 hcollision e
    obtain ⟨hlisted, hkeeps⟩ := h.list hfree
    have hsub : done ++ [t] ⊆ tables := List.append_subset.2 ⟨hdone, by simpa using ht⟩
    simp only
    split
    · rename_i hnone
      simp [hnamed] at hnone
    · rename_i value hvalue
      obtain rfl : .bean b = value := Option.some.inj (hnamed.symm.trans hvalue)
      have hcollects := collects_reach hsub _ [⟨.bean b, mem_of_named?_eq_some hvalue⟩]
        (hlisted.wait _) (by simpa using hneeded)
      exact (hcollects.after [] hkeeps (by simp)).mono (by simp)

/-- The row beans of some tables. -/
def rowsOf (ds : Declarations) (tables : List TableDef) : List TypeDef :=
  tables.filterMap fun t => (ds.bean? t.valueType).map .bean

theorem collects_tables {g : TypeGraph} (rest : List TableDef) (hall : done ++ rest = tables)
    (hrows : ∀ t ∈ rest, ∃ b, g.types.bean? t.valueType = some b)
    (h : g.types.Collected tables enabled done [] c) :
    g.types.Collects tables enabled tables c (g.types.rowsOf rest)
      (rest.foldlM g.types.reachTable c) := by
  induction rest generalizing done c with
  | nil =>
    rw [List.append_nil] at hall
    subst hall
    exact ⟨h, .refl c, by simp [rowsOf]⟩
  | cons t rest ih =>
    rw [List.forall_mem_cons] at hrows
    obtain ⟨⟨b, hb⟩, hrows⟩ := hrows
    have hdone : done ⊆ tables := hall ▸ List.subset_append_left ..
    have ht : t ∈ tables := hall ▸ List.mem_append_right _ List.mem_cons_self
    have hwanted : g.types.rowsOf (t :: rest) = [.bean b] ++ g.types.rowsOf rest := by
      simp [rowsOf, hb]
    rw [List.foldlM_cons, hwanted]
    refine (collects_reachTable hdone ht hb h).bind (by simp [TypeDef.kind]) fun c₁ hc₁ => ?_
    exact ih (by simpa using hall) hrows hc₁

/-! ### The whole export -/

theorem collects_exportClosure {g : TypeGraph} (enabled : List String)
    (hrows : ∀ t ∈ tables, ∃ b, g.types.bean? t.valueType = some b) :
    g.types.Collects tables enabled tables .empty
      (g.types.filter (isRoot enabled) ++ g.types.rowsOf tables)
      (g.types.exportClosure tables enabled) := by
  have hempty : g.types.Collected tables enabled [] [] .empty :=
    ⟨NameMap.ascending_empty, by simp, by simp, by simp [lastNamed?], by simp⟩
  have hroots := collects_reachRoots .empty g.types.attach hempty
  rw [List.attach_map_subtype_val] at hroots
  refine hroots.bind (fun d hd => ?_) fun c hc => collects_tables tables (by simp) hrows hc
  obtain ⟨hmem, hroot⟩ := List.mem_filter.1 hd
  have hneeded : g.types.Needed tables enabled d := needed_of_isRoot hmem hroot
  exact hneeded.kind_ne

/-- A closure with nothing pending that holds the roots and the row beans holds all that is needed. -/
theorem Collected.get?_of_needed (h : ds.Collected tables enabled done [] c)
    (hheld : ∀ d ∈ ds.filter (isRoot enabled) ++ ds.rowsOf tables, c.get? d.fullName = some d)
    (hd : ds.Needed tables enabled d) : c.get? d.fullName = some d := by
  induction hd with
  | enum hmem =>
    exact hheld _ (List.mem_append_left _ (List.mem_filter.2 ⟨hmem, rfl⟩))
  | grouped hmem hgroup henabled =>
    refine hheld _ (List.mem_append_left _ (List.mem_filter.2 ⟨hmem, ?_⟩))
    exact List.any_eq_true.2 ⟨_, hgroup, by simpa using henabled⟩
  | row ht hb =>
    refine hheld _ (List.mem_append_right _ (List.mem_filterMap.2 ⟨_, ht, ?_⟩))
    rw [hb, Option.map_some]
  | mention hd hr ih => exact (h.closed _ _ ih hd.kind_ne _ hr).resolve_right (by simp)

/-- A table of the export has the name of a declaration that the export needs. -/
def NameClash (ds : Declarations) (tables : List TableDef) (enabled : List String) : Prop :=
  ∃ t ∈ tables, ∃ d, ds.Needed tables enabled d ∧ t.fullName = d.fullName

theorem exportClosure_of_clash {g : TypeGraph}
    (hrows : ∀ t ∈ tables, ∃ b, g.types.bean? t.valueType = some b)
    (hclash : g.types.NameClash tables enabled) :
    ∃ e, g.types.exportClosure tables enabled = .error e ∧ g.types.Collides tables enabled e := by
  have hcollects := collects_exportClosure enabled hrows
  cases hresult : g.types.exportClosure tables enabled with
  | error e =>
    rw [hresult] at hcollects
    exact ⟨e, rfl, hcollects⟩
  | ok c =>
    rw [hresult] at hcollects
    obtain ⟨hc, _, hheld⟩ := hcollects
    obtain ⟨t, ht, d, hd, hname⟩ := hclash
    obtain ⟨u, hu⟩ := exists_lastNamed? ht
    have htable : c.get? d.fullName = some (.table u) := hname ▸ (hc.listed _ u).2 hu
    rw [hc.get?_of_needed hheld hd, Option.some.injEq] at htable
    exact absurd (htable ▸ rfl) hd.kind_ne

theorem exportClosure_of_no_clash {g : TypeGraph}
    (hrows : ∀ t ∈ tables, ∃ b, g.types.bean? t.valueType = some b)
    (hfree : ¬g.types.NameClash tables enabled) :
    ∃ c, g.types.exportClosure tables enabled = .ok c ∧ c.Ascending ∧
      ∀ name d, (name, d) ∈ c.entries ↔ d.fullName = name ∧
        (g.types.Needed tables enabled d ∨
          ∃ t, d = .table t ∧ lastNamed? tables name = some t) := by
  have hcollects := collects_exportClosure enabled hrows
  cases hresult : g.types.exportClosure tables enabled with
  | error e =>
    rw [hresult] at hcollects
    obtain ⟨t, ht, d, hd, hname, _⟩ := hcollects
    exact absurd ⟨t, ht, d, hd, hname⟩ hfree
  | ok c =>
    rw [hresult] at hcollects
    obtain ⟨hc, _, hheld⟩ := hcollects
    refine ⟨c, rfl, hc.ascending, fun name d => ?_⟩
    rw [NameMap.mem_entries_iff hc.ascending]
    constructor
    · intro hget
      refine ⟨hc.named _ _ hget, ?_⟩
      cases d with
      | table t => exact .inr ⟨t, rfl, (hc.listed _ t).1 hget⟩
      | enum e => exact .inl (hc.needed _ _ hget (by simp [TypeDef.kind]))
      | bean b => exact .inl (hc.needed _ _ hget (by simp [TypeDef.kind]))
    · rintro ⟨rfl, hd | ⟨t, rfl, ht⟩⟩
      · exact hc.get?_of_needed hheld hd
      · exact (hc.listed _ t).2 ht

theorem declared_of_mem_exportTables {t : TableDef} (h : t ∈ ds.exportTables enabled) :
    .table t ∈ ds := by
  obtain ⟨d, hd, ht⟩ := List.mem_filterMap.1 (List.mem_filter.1 h).1
  cases d <;> cases ht
  exact hd

/-- Tables of the graph never clash, since a full name stands for one declaration. -/
theorem not_nameClash_of_declared {g : TypeGraph} (hown : ∀ t ∈ tables, .table t ∈ g.types) :
    ¬g.types.NameClash tables enabled := by
  rintro ⟨t, ht, d, hd, hname⟩
  have hsame : .table t = d := g.eq_of_fullName_eq (hown t ht) hd.mem hname
  exact hd.kind_ne (hsame ▸ rfl)

/-- An export fails exactly when a table has the name of a declaration that the export needs, and then
for such a table. Otherwise it is the map of what is needed and of the tables, each under its full
name, the last one of tables of one name. The tables of the graph itself never make it fail. -/
theorem exportClosure_exact (g : TypeGraph) (tables : List TableDef) (enabled : List String) :
    ((∀ t ∈ tables, ∃ b, g.types.bean? t.valueType = some b) →
      (g.types.NameClash tables enabled →
        ∃ e, g.types.exportClosure tables enabled = .error e ∧ g.types.Collides tables enabled e) ∧
      (¬g.types.NameClash tables enabled →
        ∃ c, g.types.exportClosure tables enabled = .ok c ∧ c.Ascending ∧
          ∀ name d, (name, d) ∈ c.entries ↔ d.fullName = name ∧
            (g.types.Needed tables enabled d ∨
              ∃ t, d = .table t ∧ lastNamed? tables name = some t))) ∧
    ((∀ t ∈ tables, .table t ∈ g.types) → ∃ c, g.types.exportClosure tables enabled = .ok c) := by
  refine ⟨fun hrows => ⟨exportClosure_of_clash hrows, exportClosure_of_no_clash hrows⟩,
    fun hown => ?_⟩
  have hrows : ∀ t ∈ tables, ∃ b, g.types.bean? t.valueType = some b :=
    fun t ht => g.exists_row (hown t ht)
  obtain ⟨c, hc, _⟩ := exportClosure_of_no_clash hrows (not_nameClash_of_declared hown)
  exact ⟨c, hc⟩

namespace Peers

/-- A bean whose values mention a peer. -/
def node : BeanDef :=
  ⟨"", "Node", none, false, [], [⟨"peer", .nullable (.named "Peer"), none⟩], none⟩

/-- The peer, whose values mention a node again. -/
def peer : BeanDef := ⟨"", "Peer", none, false, [], [⟨"node", .named "Node", none⟩], none⟩

/-- A table of nodes, under some name. -/
def tableNamed (name : String) : TableDef := ⟨"", name, "Node", none, .list, [], none, none⟩

/-- Two beans that mention each other, and a table. -/
def graph : TypeGraph := ⟨[.bean node, .bean peer, .table (tableNamed "TbNode")], by decide⟩

/-- A foreign table with the name of the peer is refused, and the table of the graph is exported. -/
theorem export_exact : (∃ e, graph.types.exportClosure [tableNamed "Peer"] [] = .error e ∧
      graph.types.Collides [tableNamed "Peer"] [] e) ∧
    ∃ c, graph.types.exportClosure [tableNamed "TbNode"] [] = .ok c := by
  have hpeer : graph.types.Needed [tableNamed "Peer"] [] (.bean peer) :=
    .mention (.row (t := tableNamed "Peer") (b := node) (by decide) (by decide)) (by decide)
  have hrows : ∀ t ∈ [tableNamed "Peer"], ∃ b, graph.types.bean? t.valueType = some b := by
    intro t ht
    exact ⟨node, List.mem_singleton.1 ht ▸ by decide⟩
  have hclash : graph.types.NameClash [tableNamed "Peer"] [] :=
    ⟨tableNamed "Peer", by decide, .bean peer, hpeer, by decide⟩
  exact ⟨((exportClosure_exact graph [tableNamed "Peer"] []).1 hrows).1 hclash,
    (exportClosure_exact graph [tableNamed "TbNode"] []).2 (by decide)⟩

end Peers

end Declarations

end ConfigTables
