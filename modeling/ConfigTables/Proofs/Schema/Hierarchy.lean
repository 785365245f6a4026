import ConfigTables.Proofs.Schema.Accepted
import Mathlib.Data.List.Perm.Subperm
import Mathlib.Logic.Relation

/-!
    The tree of beans. Walks along parents and children are cut after as many steps as there are
    declarations; in an accepted graph that cuts nothing, because the chain of parents of a bean never
    comes back to a name and so is shorter than the list. Hence `ancestors` unfolds along parents, and
    `descendants` lists exactly the beans that stand `Below` a bean. -/

namespace ConfigTables

namespace Declarations
variable {ds : Declarations}

/-- `p` is the parent of `b`, and both are declared. -/
structure ParentOf (ds : Declarations) (p b : BeanDef) : Prop where
  parent : .bean p ∈ ds
  child : .bean b ∈ ds
  named : b.parent = some p.fullName

instance (ds : Declarations) (p b : BeanDef) : Decidable (ds.ParentOf p b) :=
  decidable_of_iff (.bean p ∈ ds ∧ .bean b ∈ ds ∧ b.parent = some p.fullName)
    ⟨fun ⟨hp, hb, hname⟩ => ⟨hp, hb, hname⟩, fun ⟨hp, hb, hname⟩ => ⟨hp, hb, hname⟩⟩

/-- `c` has `d` for its parent, or its parent stands below `d`. -/
def Below (ds : Declarations) (d c : BeanDef) : Prop := Relation.TransGen ds.ParentOf d c

theorem Below.declared {c d : BeanDef} (h : ds.Below d c) : .bean c ∈ ds := by
  obtain ⟨_, _, hparent⟩ := Relation.TransGen.tail'_iff.1 h
  exact hparent.child

theorem Below.declared_above {c d : BeanDef} (h : ds.Below d c) : .bean d ∈ ds := by
  obtain ⟨_, hparent, _⟩ := Relation.TransGen.head'_iff.1 h
  exact hparent.parent

theorem fullName_mem_of_bean? {name : String} {b : BeanDef} (h : ds.bean? name = some b) :
    b.fullName ∈ ds.map (·.fullName) := by
  obtain ⟨d, hd, hbean⟩ := Option.bind_eq_some_iff.1 h
  cases d <;> cases hbean
  exact List.mem_map.2 ⟨_, List.mem_of_find?_eq_some hd, rfl⟩

theorem length_le_of_subset_fullNames {seen : List String} (hnodup : seen.Nodup)
    (hseen : seen ⊆ ds.map (·.fullName)) : seen.length ≤ ds.length := by
  have hle := (hnodup.subperm hseen).length_le
  rwa [List.length_map] at hle

/-- Without a fault the way up from a bean ends before the steps run out: the names passed on it are
different declared ones, and no list has more of these than declarations. -/
theorem length_ancestorsWithin_lt {bean : BeanDef} {steps : Nat} {seen : List String}
    {current : BeanDef} (h : ds.parentFault? bean steps seen current = none) (hnodup : seen.Nodup)
    (hseen : seen ⊆ ds.map (·.fullName)) (hsteps : ds.length < seen.length + steps) :
    (ds.ancestorsWithin steps current).length < steps := by
  induction steps generalizing seen current with
  | zero =>
    have hle := length_le_of_subset_fullNames hnodup hseen
    omega
  | succ steps ih =>
    rw [parentFault?] at h
    rw [ancestorsWithin, parent?]
    cases hname : current.parent with
    | none => simp
    | some name =>
      simp only [hname] at h
      cases hparent : ds.bean? name with
      | none => simp [hparent] at h
      | some parent =>
        simp only [hparent] at h
        split at h
        · cases h
        · rename_i hnew
          have hmem := fullName_mem_of_bean? hparent
          have hlt := ih h (List.nodup_cons.2 ⟨hnew, hnodup⟩) (List.cons_subset.2 ⟨hmem, hseen⟩)
            (by rw [List.length_cons]; omega)
          simpa [hparent] using hlt

/-- A way up that ended stays the same with more steps. -/
theorem ancestorsWithin_succ {steps : Nat} {b : BeanDef}
    (h : (ds.ancestorsWithin steps b).length < steps) :
    ds.ancestorsWithin (steps + 1) b = ds.ancestorsWithin steps b := by
  induction steps generalizing b with
  | zero => omega
  | succ steps ih =>
    rw [ancestorsWithin, ancestorsWithin]
    cases hparent : ds.parent? b with
    | none => rfl
    | some p =>
      rw [ancestorsWithin, hparent] at h
      simp only at h ⊢
      rw [ih (by simpa using h)]

theorem descendantsWithin_mono {m n : Nat} (h : m ≤ n) (name : String) :
    ds.descendantsWithin m name ⊆ ds.descendantsWithin n name := by
  induction m generalizing n name with
  | zero => simp [descendantsWithin]
  | succ m ih =>
    obtain ⟨n, rfl⟩ : ∃ k, n = k + 1 := ⟨n - 1, by omega⟩
    intro c hc
    rw [descendantsWithin, List.mem_flatMap] at hc ⊢
    obtain ⟨child, hchild, hc⟩ := hc
    refine ⟨child, hchild, ?_⟩
    cases hbean : ds.bean? child with
    | none => simp [hbean] at hc
    | some b =>
      simp only [hbean, List.mem_cons] at hc ⊢
      exact hc.imp_right fun hc => ih (by omega) _ hc

end Declarations

namespace TypeGraph
variable (g : TypeGraph)

theorem declared_of_parent? {b c : BeanDef} (h : g.types.parent? c = some b) :
    .bean b ∈ g.types ∧ c.parent = some b.fullName := by
  obtain ⟨name, hname, hb⟩ := Option.bind_eq_some_iff.1 h
  obtain ⟨hmem, rfl⟩ := g.bean?_eq_some_iff.1 hb
  exact ⟨hmem, hname⟩

theorem parent?_eq_some {b c : BeanDef} (h : g.types.ParentOf b c) :
    g.types.parent? c = some b := by
  rw [Declarations.parent?, h.named, Option.bind_some]
  exact g.bean?_eq_some_iff.2 ⟨h.parent, rfl⟩

theorem mem_children_iff {name child : String} : child ∈ g.types.children name ↔
    ∃ c, .bean c ∈ g.types ∧ c.parent = some name ∧ c.fullName = child := by
  rw [Declarations.children, List.mem_filterMap]
  simp only [Declarations.mem_filterMap_bean?_iff, Option.ite_none_right_eq_some,
    Option.some.injEq]

theorem length_ancestors_lt {b : BeanDef} (hb : .bean b ∈ g.types) :
    (g.types.ancestors b).length < g.types.length := by
  refine Declarations.length_ancestorsWithin_lt (g.checks.2.1 _ hb) (List.nodup_singleton _) ?_ ?_
  · simpa using ⟨_, hb, rfl⟩
  · simp

/-- The ancestors of a bean are its parent and the ancestors of its parent. -/
theorem ancestors_eq_cons {b c : BeanDef} (h : g.types.ParentOf b c) :
    g.types.ancestors c = b :: g.types.ancestors b := by
  have hlt := g.length_ancestors_lt h.child
  unfold Declarations.ancestors at hlt ⊢
  obtain ⟨n, hn⟩ : ∃ n, g.types.length = n + 1 := ⟨g.types.length - 1, by omega⟩
  rw [hn, Declarations.ancestorsWithin, g.parent?_eq_some h] at hlt
  rw [hn, Declarations.ancestorsWithin, g.parent?_eq_some h]
  simp only [List.length_cons, Nat.add_lt_add_iff_right] at hlt ⊢
  rw [Declarations.ancestorsWithin_succ hlt]

/-- A bean stands below its ancestors. -/
theorem below_of_mem_ancestorsWithin {steps : Nat} {b owner : BeanDef} (hb : .bean b ∈ g.types)
    (h : owner ∈ g.types.ancestorsWithin steps b) : g.types.Below owner b := by
  induction steps generalizing b with
  | zero => simp [Declarations.ancestorsWithin] at h
  | succ steps ih =>
    rw [Declarations.ancestorsWithin] at h
    cases hparent : g.types.parent? b with
    | none => simp [hparent] at h
    | some p =>
      simp only [hparent, List.mem_cons] at h
      obtain ⟨hp, hname⟩ := g.declared_of_parent? hparent
      rcases h with rfl | h
      · exact .single ⟨hp, hb, hname⟩
      · exact .tail (ih hp h) ⟨hp, hb, hname⟩

/-- The fields of a bean with those it inherits are own fields of declared beans. -/
theorem declared_of_mem_hierarchyFields {b : BeanDef} {f : BeanDef × FieldDef}
    (hb : .bean b ∈ g.types) (h : f ∈ g.types.hierarchyFields b) :
    .bean f.1 ∈ g.types ∧ f.2 ∈ f.1.fields := by
  rw [Declarations.hierarchyFields, List.mem_flatMap] at h
  obtain ⟨owner, howner, h⟩ := h
  obtain ⟨field, hfield, rfl⟩ := List.mem_map.1 h
  rw [List.mem_reverse, List.mem_cons] at howner
  rcases howner with rfl | howner
  · exact ⟨hb, hfield⟩
  · exact ⟨(g.below_of_mem_ancestorsWithin hb howner).declared_above, hfield⟩

/-- The fields that a bean inherits come before its own. -/
theorem hierarchyFields_eq_append {b c : BeanDef} (h : g.types.ParentOf b c) :
    g.types.hierarchyFields c =
      g.types.hierarchyFields b ++ c.fields.map fun field => (c, field) := by
  rw [Declarations.hierarchyFields, g.ancestors_eq_cons h, List.reverse_cons, List.flatMap_append,
    Declarations.hierarchyFields]
  simp

/-- The fields of a bean begin with those of every bean that it stands below. -/
theorem hierarchyFields_prefix {c d : BeanDef} (h : g.types.Below d c) :
    g.types.hierarchyFields d <+: g.types.hierarchyFields c := by
  induction h with
  | single hparent =>
    rw [g.hierarchyFields_eq_append hparent]
    exact List.prefix_append _ _
  | tail _ hparent ih =>
    rw [g.hierarchyFields_eq_append hparent]
    exact ih.trans (List.prefix_append _ _)

/-- A bean has the fields of every bean that it stands below. -/
theorem hierarchyFields_subset {c d : BeanDef} (h : g.types.Below d c) :
    g.types.hierarchyFields d ⊆ g.types.hierarchyFields c :=
  (g.hierarchyFields_prefix h).subset

theorem mem_descendantsWithin_succ {name : String} {levels : Nat} {b : BeanDef} :
    b ∈ g.types.descendantsWithin (levels + 1) name ↔ ∃ c, .bean c ∈ g.types ∧
      c.parent = some name ∧ (b = c ∨ b ∈ g.types.descendantsWithin levels c.fullName) := by
  rw [Declarations.descendantsWithin, List.mem_flatMap]
  constructor
  · rintro ⟨child, hchild, hb⟩
    obtain ⟨c, hc, hparent, rfl⟩ := g.mem_children_iff.1 hchild
    rw [g.bean?_eq_some_iff.2 ⟨hc, rfl⟩] at hb
    exact ⟨c, hc, hparent, List.mem_cons.1 hb⟩
  · rintro ⟨c, hc, hparent, hb⟩
    refine ⟨c.fullName, g.mem_children_iff.2 ⟨c, hc, hparent, rfl⟩, ?_⟩
    rw [g.bean?_eq_some_iff.2 ⟨hc, rfl⟩]
    exact List.mem_cons.2 hb

theorem below_of_mem_descendantsWithin {levels : Nat} {c d : BeanDef} (hd : .bean d ∈ g.types)
    (h : c ∈ g.types.descendantsWithin levels d.fullName) : g.types.Below d c := by
  induction levels generalizing d with
  | zero => simp [Declarations.descendantsWithin] at h
  | succ levels ih =>
    obtain ⟨b, hb, hparent, rfl | hc⟩ := g.mem_descendantsWithin_succ.1 h
    · exact .single ⟨hd, hb, hparent⟩
    · exact .head ⟨hd, hb, hparent⟩ (ih hb hc)

theorem mem_descendantsWithin_child {levels : Nat} {b c : BeanDef} {name : String}
    (hb : b ∈ g.types.descendantsWithin levels name) (h : g.types.ParentOf b c) :
    c ∈ g.types.descendantsWithin (levels + 1) name := by
  induction levels generalizing name with
  | zero => simp [Declarations.descendantsWithin] at hb
  | succ levels ih =>
    obtain ⟨a, ha, hparent, hb⟩ := g.mem_descendantsWithin_succ.1 hb
    refine g.mem_descendantsWithin_succ.2 ⟨a, ha, hparent, .inr ?_⟩
    rcases hb with rfl | hb
    · exact g.mem_descendantsWithin_succ.2 ⟨c, h.child, h.named, .inl rfl⟩
    · exact ih hb

/-- A bean stands among the descendants as deep as it has ancestors. -/
theorem mem_descendantsWithin_of_below {c d : BeanDef} (h : g.types.Below d c) :
    c ∈ g.types.descendantsWithin (g.types.ancestors c).length d.fullName := by
  induction h with
  | single hparent =>
    rw [g.ancestors_eq_cons hparent, List.length_cons]
    exact g.mem_descendantsWithin_succ.2 ⟨_, hparent.child, hparent.named, .inl rfl⟩
  | tail _ hparent ih =>
    rw [g.ancestors_eq_cons hparent, List.length_cons]
    exact g.mem_descendantsWithin_child ih hparent

/-- The descendants of a bean are the beans below it. -/
theorem mem_descendants_iff {c d : BeanDef} (hd : .bean d ∈ g.types) :
    c ∈ g.types.descendants d.fullName ↔ g.types.Below d c := by
  refine ⟨g.below_of_mem_descendantsWithin hd, fun h => ?_⟩
  exact Declarations.descendantsWithin_mono (Nat.le_of_lt (g.length_ancestors_lt h.declared)) _
    (g.mem_descendantsWithin_of_below h)

/-- A bean has children exactly when some bean stands below it. -/
theorem exists_below_iff_children {d : BeanDef} (hd : .bean d ∈ g.types) :
    (∃ c, g.types.Below d c) ↔ g.types.children d.fullName ≠ [] := by
  rw [ne_eq, List.eq_nil_iff_forall_not_mem, not_forall_not]
  constructor
  · rintro ⟨c, hc⟩
    obtain ⟨b, hparent, _⟩ := Relation.TransGen.head'_iff.1 hc
    exact ⟨_, g.mem_children_iff.2 ⟨b, hparent.child, hparent.named, rfl⟩⟩
  · rintro ⟨child, hchild⟩
    obtain ⟨c, hc, hparent, rfl⟩ := g.mem_children_iff.1 hchild
    exact ⟨c, .single ⟨hd, hc, hparent⟩⟩

end TypeGraph

end ConfigTables
