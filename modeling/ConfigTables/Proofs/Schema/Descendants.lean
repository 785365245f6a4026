import ConfigTables.Proofs.Schema.Consistent

/-!
    The order of the beans below a name. `descendants` goes down so many levels; the walk that it
    stands for keeps a stack of names and goes on until that is empty. In an accepted graph the walk
    comes to an end, because every line of parents does, and it lists the beans below the name depth
    first: all of them, each once, each before the beans below it and these together, and siblings
    as they are declared.

    The tree has no root of its own: it is cut off below a name, and its leaves are the names
    without children. So the induction is from the leaves upwards, over all names at once
    (`induction_children`). -/

namespace ConfigTables

namespace Declarations

/-- The beans with a given parent, as they are declared. -/
def offspring (ds : Declarations) (name : String) : List BeanDef :=
  (ds.filterMap TypeDef.bean?).filter (·.parent = some name)

/-- The walk over a stack of names, the topmost one first, without a bound: a name that stands for a
bean gives this bean, and the names of its children go on top of the others, the first child
topmost; any other name is dropped. When the stack is empty, the walk is at its end with the beans
it gave. -/
inductive StackWalk (ds : Declarations) : List String → List BeanDef → Prop
  | done : StackWalk ds [] []
  | drop {name : String} {stack : List String} {found : List BeanDef} :
      ds.bean? name = none → StackWalk ds stack found → StackWalk ds (name :: stack) found
  | take {name : String} {stack : List String} {b : BeanDef} {found : List BeanDef} :
      ds.bean? name = some b → StackWalk ds (ds.children name ++ stack) found →
      StackWalk ds (name :: stack) (b :: found)

/-- The beans below a name, depth first. None has the name itself. A bean that has another parent
than the name comes after that parent, together with a bean stand those below it, and the children
of the name, and of each bean in the list, stand in it as they are declared. -/
structure DepthFirst (ds : Declarations) (name : String) (l : List BeanDef) : Prop where
  exact : ∀ b, b ∈ l ↔ ∃ a, ds.Below a b ∧ a.fullName = name
  proper : ∀ b ∈ l, b.fullName ≠ name
  once : l.Nodup
  parents : ∀ b ∈ l, b.parent = some name ∨ ∃ p, ds.ParentOf p b ∧ [p, b].Sublist l
  subtrees : ∀ b ∈ l, ∃ below, (b :: below) <:+: l ∧ ∀ c, c ∈ below ↔ ds.Below b c
  siblings : ∀ p, p = name ∨ (∃ b ∈ l, b.fullName = p) →
    l.filter (·.parent = some p) = ds.offspring p

variable {ds : Declarations}

theorem mem_offspring_iff {name : String} {b : BeanDef} :
    b ∈ ds.offspring name ↔ .bean b ∈ ds ∧ b.parent = some name := by
  rw [offspring, List.mem_filter, mem_filterMap_bean?_iff, decide_eq_true_iff]

theorem children_eq (ds : Declarations) (name : String) :
    ds.children name = (ds.offspring name).map (·.fullName) := by
  rw [children, offspring, ← List.filterMap_eq_map, List.filterMap_filter]
  simp only [decide_eq_true_eq, Function.comp_apply]

/-- A walk comes to one end only. -/
theorem StackWalk.unique {stack : List String} {found found' : List BeanDef}
    (h : ds.StackWalk stack found) (h' : ds.StackWalk stack found') : found = found' := by
  induction h generalizing found' with
  | done => cases h'; rfl
  | drop hnone _ ih =>
    cases h' with
    | drop _ h' => exact ih h'
    | take hb _ => cases hnone.symm.trans hb
  | take hb _ ih =>
    cases h' with
    | drop hnone _ => cases hnone.symm.trans hb
    | take hb' h' =>
      cases hb.symm.trans hb'
      rw [ih h']

/-- The ancestors of a bean depend on its parent alone. -/
theorem ancestors_congr {b c : BeanDef} (h : b.parent = c.parent) :
    ds.ancestors b = ds.ancestors c := by
  unfold ancestors
  cases ds.length with
  | zero => rfl
  | succ steps => rw [ancestorsWithin, ancestorsWithin, parent?, parent?, h]

end Declarations

namespace TypeGraph
variable (g : TypeGraph)
open Declarations

/-! ### Lines of parents -/

theorem not_below_self (b : BeanDef) : ¬g.types.Below b b :=
  (fault?_eq_none_iff_consistent.1 g.consistent).acyclic b

/-- The parent of a declared bean is declared. -/
theorem exists_parentOf {b : BeanDef} {name : String} (hb : .bean b ∈ g.types)
    (hname : b.parent = some name) : ∃ p, g.types.ParentOf p b ∧ p.fullName = name := by
  obtain ⟨p, hp, rfl⟩ :=
    (fault?_eq_none_iff_consistent.1 g.consistent).parents b hb name hname
  exact ⟨p, ⟨hp, hb, hname⟩, rfl⟩

/-- The line from a bean upwards ends with the line of each bean that it stands below. -/
theorem suffix_ancestors {c d : BeanDef} (h : g.types.Below d c) :
    d :: g.types.ancestors d <:+ g.types.ancestors c := by
  induction h with
  | single hparent => exact (g.ancestors_eq_cons hparent).symm ▸ List.suffix_rfl
  | tail _ hparent ih =>
    rw [g.ancestors_eq_cons hparent]
    exact ih.trans (List.suffix_cons ..)

/-- No bean stands at or below two different siblings. -/
theorem eq_of_siblings {b c x : BeanDef} (hparent : b.parent = c.parent)
    (hb : x = b ∨ g.types.Below b x) (hc : x = c ∨ g.types.Below c x) : b = c := by
  have hline : ∀ {d}, x = d ∨ g.types.Below d x →
      d :: g.types.ancestors d <:+ x :: g.types.ancestors x := by
    rintro d (rfl | hd)
    · exact List.suffix_rfl
    · exact (g.suffix_ancestors hd).trans (List.suffix_cons ..)
  -- siblings have the same ancestors, so both lines are the end of one length
  have hsame := hline hb
  rw [ancestors_congr hparent] at hsame
  have heq := (List.suffix_of_suffix_length_le hsame (hline hc) (by simp)).eq_of_length (by simp)
  exact (List.cons.inj heq).1

/-- What holds of a name whenever it holds of all names of its children, holds of every name. -/
theorem induction_children {motive : String → Prop}
    (step : ∀ name, (∀ b ∈ g.types.offspring name, motive b.fullName) → motive name)
    (name : String) : motive name := by
  have hdeep : ∀ levels b, .bean b ∈ g.types →
      g.types.length ≤ levels + (g.types.ancestors b).length → motive b.fullName := by
    intro levels
    induction levels with
    | zero =>
      intro b hb hlength
      have hlt := g.length_ancestors_lt hb
      omega
    | succ levels ih =>
      intro b hb hlength
      refine step _ fun c hc => ?_
      obtain ⟨hc, hparent⟩ := mem_offspring_iff.1 hc
      refine ih c hc ?_
      rw [g.ancestors_eq_cons ⟨hb, hc, hparent⟩, List.length_cons]
      omega
  exact step name fun b hb => hdeep g.types.length b (mem_offspring_iff.1 hb).1 (by omega)

/-! ### Going down -/

theorem descendantsWithin_succ (levels : Nat) (name : String) :
    g.types.descendantsWithin (levels + 1) name =
      (g.types.offspring name).flatMap fun b =>
        b :: g.types.descendantsWithin levels b.fullName := by
  rw [descendantsWithin, children_eq, List.flatMap_map]
  refine List.flatMap_congr fun b hb => ?_
  rw [g.bean?_eq_some_iff.2 ⟨(mem_offspring_iff.1 hb).1, rfl⟩]

/-- More levels than a bean can have below it give nothing more. -/
theorem descendantsWithin_enough {levels : Nat} {b : BeanDef} (hb : .bean b ∈ g.types)
    (h : g.types.length ≤ levels + (g.types.ancestors b).length + 1) :
    g.types.descendantsWithin (levels + 1) b.fullName =
      g.types.descendantsWithin levels b.fullName := by
  induction levels generalizing b with
  | zero =>
    rw [descendantsWithin_succ, descendantsWithin, List.flatMap_eq_nil_iff]
    intro c hc
    obtain ⟨hc, hparent⟩ := mem_offspring_iff.1 hc
    have hlt := g.length_ancestors_lt hc
    rw [g.ancestors_eq_cons ⟨hb, hc, hparent⟩, List.length_cons] at hlt
    omega
  | succ levels ih =>
    rw [descendantsWithin_succ, descendantsWithin_succ]
    refine List.flatMap_congr fun c hc => ?_
    obtain ⟨hc, hparent⟩ := mem_offspring_iff.1 hc
    rw [ih hc]
    rw [g.ancestors_eq_cons ⟨hb, hc, hparent⟩, List.length_cons]
    omega

/-- Below a name come its children, each with what stands below it. -/
theorem descendants_eq (name : String) : g.types.descendants name =
    (g.types.offspring name).flatMap fun b => b :: g.types.descendants b.fullName := by
  cases hlength : g.types.length with
  | zero =>
    rw [descendants, hlength, descendantsWithin, offspring, List.length_eq_zero_iff.1 hlength]
    rfl
  | succ levels =>
    simp only [descendants, hlength]
    rw [descendantsWithin_succ]
    refine List.flatMap_congr fun b hb => ?_
    rw [g.descendantsWithin_enough (mem_offspring_iff.1 hb).1 (by omega)]

theorem mem_descendants_iff_exists {name : String} {b : BeanDef} :
    b ∈ g.types.descendants name ↔ ∃ a, g.types.Below a b ∧ a.fullName = name := by
  constructor
  · intro hb
    -- a name with something below it is that of a declared bean
    have hbelow := hb
    rw [descendants_eq, List.mem_flatMap] at hb
    obtain ⟨c, hc, _⟩ := hb
    obtain ⟨hc, hname⟩ := mem_offspring_iff.1 hc
    obtain ⟨p, hp, rfl⟩ := g.exists_parentOf hc hname
    exact ⟨p, (g.mem_descendants_iff hp.parent).1 hbelow, rfl⟩
  · rintro ⟨a, ha, rfl⟩
    exact (g.mem_descendants_iff ha.declared_above).2 ha

theorem declared_of_mem_descendants {name : String} {b : BeanDef}
    (h : b ∈ g.types.descendants name) : .bean b ∈ g.types := by
  obtain ⟨a, ha, _⟩ := g.mem_descendants_iff_exists.1 h
  exact ha.declared

/-- A bean in the list stands there together with the beans below it. -/
theorem infix_descendants {name : String} {b : BeanDef} (h : b ∈ g.types.descendants name) :
    (b :: g.types.descendants b.fullName) <:+: g.types.descendants name := by
  induction name using g.induction_children with
  | step name ih =>
    rw [descendants_eq, List.mem_flatMap] at h
    obtain ⟨c, hc, hb⟩ := h
    have hpiece : (c :: g.types.descendants c.fullName) <:+: g.types.descendants name := by
      rw [g.descendants_eq name]
      exact List.infix_flatMap_of_mem hc fun c => c :: g.types.descendants c.fullName
    rcases List.mem_cons.1 hb with rfl | hb
    · exact hpiece
    · exact ((ih c hc hb).trans (List.suffix_cons ..).isInfix).trans hpiece

/-- No bean stands below its own name. -/
theorem fullName_ne_of_mem_descendants {name : String} {b : BeanDef}
    (h : b ∈ g.types.descendants name) : b.fullName ≠ name := by
  rintro rfl
  exact g.not_below_self b ((g.mem_descendants_iff (g.declared_of_mem_descendants h)).1 h)

theorem nodup_offspring (name : String) : (g.types.offspring name).Nodup := by
  refine List.Nodup.filter _ (List.Nodup.filterMap (fun d e b hd he => ?_) g.checks.1.of_map)
  cases d <;> cases hd
  cases e <;> cases he
  rfl

theorem nodup_descendants (name : String) : (g.types.descendants name).Nodup := by
  induction name using g.induction_children with
  | step name ih =>
    have hmem : ∀ {b x}, b ∈ g.types.offspring name → x ∈ b :: g.types.descendants b.fullName →
        x = b ∨ g.types.Below b x := fun hb hx =>
      (List.mem_cons.1 hx).imp_right (g.mem_descendants_iff (mem_offspring_iff.1 hb).1).1
    rw [descendants_eq, List.nodup_flatMap]
    refine ⟨fun b hb => List.nodup_cons.2 ⟨fun hself => ?_, ih b hb⟩, ?_⟩
    · exact g.not_below_self b ((g.mem_descendants_iff (mem_offspring_iff.1 hb).1).1 hself)
    · refine (g.nodup_offspring name).pairwise_of_forall_ne fun b hb c hc hne x hx hx' => hne ?_
      have hparent := (mem_offspring_iff.1 hb).2.trans (mem_offspring_iff.1 hc).2.symm
      exact g.eq_of_siblings hparent (hmem hb hx) (hmem hc hx')

/-- The children of the name stand in the list as they are declared. -/
theorem filter_descendants (name : String) :
    (g.types.descendants name).filter (·.parent = some name) = g.types.offspring name := by
  have hpiece : ∀ b ∈ g.types.offspring name,
      (b :: g.types.descendants b.fullName).filter (·.parent = some name) = [b] := by
    intro b hb
    obtain ⟨hdeclared, hname⟩ := mem_offspring_iff.1 hb
    obtain ⟨p, hp, rfl⟩ := g.exists_parentOf hdeclared hname
    rw [List.filter_cons_of_pos (by simpa using hname), List.filter_eq_nil_iff.2]
    -- a child of the name that stands below another one would stand below itself
    intro c hc hname'
    have hbelow := (g.mem_descendants_iff hdeclared).1 hc
    have hparent : b.parent = c.parent := hname.trans (of_decide_eq_true hname').symm
    cases g.eq_of_siblings hparent (.inr hbelow) (.inl rfl)
    exact g.not_below_self _ hbelow
  rw [descendants_eq, List.filter_flatMap, List.flatMap_congr hpiece, List.flatMap_singleton']

/-- The children of a bean in the list stand in it as they are declared. -/
theorem filter_descendants_of_mem {name : String} {b : BeanDef}
    (hb : b ∈ g.types.descendants name) :
    (g.types.descendants name).filter (·.parent = some b.fullName) =
      g.types.offspring b.fullName := by
  rw [← filter_descendants]
  have hbelow := (List.suffix_cons b _).isInfix.trans (g.infix_descendants hb)
  refine ((hbelow.filter _).sublist.eq_of_length_le ?_).symm
  -- the children of the bean are below it, so the list has no others
  refine (((g.nodup_descendants name).filter _).subperm fun c hc => ?_).length_le
  obtain ⟨hc, hname⟩ := List.mem_filter.1 hc
  have hchild : c ∈ g.types.offspring b.fullName :=
    mem_offspring_iff.2 ⟨g.declared_of_mem_descendants hc, of_decide_eq_true hname⟩
  rw [← filter_descendants] at hchild
  exact hchild

/-- The walk takes a name with its children from the stack, and goes on with the others. -/
theorem stackWalk_descendants {name : String} {stack : List String} {found : List BeanDef}
    (h : g.types.StackWalk stack found) : g.types.StackWalk (g.types.children name ++ stack)
      (g.types.descendants name ++ found) := by
  induction name using g.induction_children generalizing stack found with
  | step name ih =>
    rw [children_eq, descendants_eq]
    have hbeans : ∀ b ∈ g.types.offspring name, .bean b ∈ g.types :=
      fun b hb => (mem_offspring_iff.1 hb).1
    generalize g.types.offspring name = siblings at ih hbeans
    induction siblings with
    | nil => exact h
    | cons b siblings ihSiblings =>
      rw [List.forall_mem_cons] at ih hbeans
      rw [List.map_cons, List.flatMap_cons, List.cons_append, List.cons_append, List.cons_append,
        List.append_assoc]
      exact .take (g.bean?_eq_some_iff.2 ⟨hbeans.1, rfl⟩) (ih.1 (ihSiblings ih.2 hbeans.2))

theorem depthFirst_descendants (name : String) :
    g.types.DepthFirst name (g.types.descendants name) := by
  refine ⟨fun b => g.mem_descendants_iff_exists, fun b => g.fullName_ne_of_mem_descendants,
    g.nodup_descendants name, fun b hb => ?_, fun b hb => ?_, fun p hp => ?_⟩
  · obtain ⟨a, ha, hname⟩ := g.mem_descendants_iff_exists.1 hb
    obtain ⟨p, hap, hparent⟩ := Relation.TransGen.tail'_iff.1 ha
    rcases Relation.reflTransGen_iff_eq_or_transGen.1 hap with rfl | hap
    · exact .inl (hparent.named.trans (congrArg some hname))
    · refine .inr ⟨p, hparent, ?_⟩
      have hp : p ∈ g.types.descendants name := g.mem_descendants_iff_exists.2 ⟨a, hap, hname⟩
      have hchild := (g.mem_descendants_iff hparent.parent).2 (.single hparent)
      exact ((List.singleton_sublist.2 hchild).cons_cons p).trans (g.infix_descendants hp).sublist
  · exact ⟨_, g.infix_descendants hb,
      fun c => g.mem_descendants_iff (g.declared_of_mem_descendants hb)⟩
  · rcases hp with rfl | ⟨b, hb, rfl⟩
    · exact g.filter_descendants p
    · exact g.filter_descendants_of_mem hb

/-- Below every name, the walk over the stack of the children comes to an end, and what it gives
there are the descendants; they stand in depth-first order. -/
theorem descendants_depthFirst (g : TypeGraph) (name : String) :
    (∀ found, g.types.StackWalk (g.types.children name) found ↔ found = g.types.descendants name) ∧
      g.types.DepthFirst name (g.types.descendants name) := by
  have hwalk : g.types.StackWalk (g.types.children name) (g.types.descendants name) := by
    have hall : g.types.StackWalk (g.types.children name ++ []) (g.types.descendants name ++ []) :=
      g.stackWalk_descendants .done
    rwa [List.append_nil, List.append_nil] at hall
  refine ⟨fun found => ⟨fun h => h.unique hwalk, ?_⟩, g.depthFirst_descendants name⟩
  rintro rfl
  exact hwalk

end TypeGraph

end ConfigTables
