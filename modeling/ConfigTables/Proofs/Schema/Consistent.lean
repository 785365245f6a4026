import ConfigTables.Proofs.Schema.Hierarchy

/-!
    Which declarations are accepted. `Consistent` says when a list of declarations makes sense, in
    terms of its members alone: no look-up, no walk, no order. `accepts_iff_consistent` says that the
    checks accept exactly these lists, so the order of the declarations does not matter.

    The checks walk up the parents of every bean before they look at inherited fields. Such a walk
    passes no name twice, so it ends by itself, and when it ends at the top for every bean, no bean
    stands above itself and collecting inherited fields ends too. -/

namespace ConfigTables.Declarations

/-- The line of a bean: the beans from its topmost ancestor down to the bean. -/
inductive Line (ds : Declarations) : BeanDef → List BeanDef → Prop
  | top {b : BeanDef} : b.parent = none → Line ds b [b]
  | under {p b : BeanDef} {line : List BeanDef} : ds.ParentOf p b → Line ds p line →
      Line ds b (line ++ [b])

/-- What a name means inside a namespace: the declaration of the name qualified by the namespace, and
only where there is none, that of the name as it stands. -/
inductive Means (ds : Declarations) (space name : String) : TypeDef → Prop
  | qualified {d : TypeDef} : space ≠ "" → d ∈ ds → d.fullName = qualify space name →
      Means ds space name d
  | absolute {d : TypeDef} : (space ≠ "" → ∀ e ∈ ds, e.fullName ≠ qualify space name) → d ∈ ds →
      d.fullName = name → Means ds space name d

/-- A table has a row bean, an index only among the own and inherited fields of that bean, and an
index at all when its rows are kept under keys. -/
def SoundTable (ds : Declarations) (t : TableDef) : Prop :=
  ∃ row, .bean row ∈ ds ∧ row.fullName = t.valueType ∧
    (∀ index, t.index = some index →
      ∃ line, ds.Line row line ∧ ∃ owner ∈ line, ∃ f ∈ owner.fields, f.name = index) ∧
    (t.mode = .map → t.index.isSome)

/-- Declarations that make sense together. -/
structure Consistent (ds : Declarations) : Prop where
  names : (ds.map (·.fullName)).Nodup
  parents : ∀ b, .bean b ∈ ds → ∀ name, b.parent = some name →
    ∃ p, .bean p ∈ ds ∧ p.fullName = name
  acyclic : ∀ b, ¬ds.Below b b
  items : ∀ e, .enum e ∈ ds → (e.items.map (·.name)).Nodup
  fields : ∀ b, .bean b ∈ ds → ∀ line, ds.Line b line →
    (line.flatMap fun owner => owner.fields.map (·.name)).Nodup
  types : ∀ b, .bean b ∈ ds → ∀ f ∈ b.fields, ∀ name ∈ f.type.names,
    ∃ d, ds.Means b.space name d ∧ d.kind ≠ .table
  keys : ∀ b, .bean b ∈ ds → ∀ f ∈ b.fields, ∀ name value,
    f.type.nonNull = .map (.named name) value → ∃ e, ds.Means b.space name (.enum e)
  tables : ∀ t, .table t ∈ ds → ds.SoundTable t

/-- The check of the parents of `bean` without a bound on its steps: past the names in `seen` and now
at `current`, it comes to an end with what it found. -/
inductive ParentWalk (ds : Declarations) (bean : BeanDef) :
    List String → BeanDef → Option SchemaError → Prop
  | top {seen : List String} {current : BeanDef} : current.parent = none →
      ParentWalk ds bean seen current none
  | lost {seen : List String} {current : BeanDef} {name : String} : current.parent = some name →
      ds.bean? name = none →
      ParentWalk ds bean seen current (some (.parentNotBean bean.fullName name))
  | back {seen : List String} {current parent : BeanDef} {name : String} :
      current.parent = some name → ds.bean? name = some parent → parent.fullName ∈ seen →
      ParentWalk ds bean seen current (some (.cyclicParents bean.fullName))
  | up {seen : List String} {current parent : BeanDef} {name : String}
      {found : Option SchemaError} : current.parent = some name → ds.bean? name = some parent →
      parent.fullName ∉ seen → ParentWalk ds bean (parent.fullName :: seen) parent found →
      ParentWalk ds bean seen current found

/-- The walks of the checks come to an end by themselves, so that the bound on their steps cuts none
short: the one up the parents of each bean with the answer of the check and, once none of these
answers a fault, the one that collects the ancestors of a bean at the top of its line. -/
def WalksEnd (ds : Declarations) : Prop :=
  (∀ b, .bean b ∈ ds → ds.ParentWalk b [b.fullName] b (ds.lineFault? (.bean b))) ∧
    ((ds.map (·.fullName)).Nodup → (∀ d ∈ ds, ds.lineFault? d = none) →
      ∀ b, .bean b ∈ ds → ds.Line b (b :: ds.ancestors b).reverse)

variable {ds ds' : Declarations}

theorem parentOf_iff_of_nodup (hnames : (ds.map (·.fullName)).Nodup) {p b : BeanDef} {name : String}
    (hb : .bean b ∈ ds) (hname : b.parent = some name) :
    ds.ParentOf p b ↔ ds.bean? name = some p := by
  rw [bean?_eq_some_iff_of_nodup hnames]
  constructor
  · rintro ⟨hp, _, hnamed⟩
    exact ⟨hp, Option.some.inj (hnamed.symm.trans hname)⟩
  · rintro ⟨hp, rfl⟩
    exact ⟨hp, hb, hname⟩

theorem ParentOf.unique (hnames : (ds.map (·.fullName)).Nodup) {p q b : BeanDef}
    (hp : ds.ParentOf p b) (hq : ds.ParentOf q b) : p = q := by
  have hp' := (parentOf_iff_of_nodup hnames hp.child hp.named).1 hp
  have hq' := (parentOf_iff_of_nodup hnames hp.child hp.named).1 hq
  exact Option.some.inj (hp'.symm.trans hq')

/-! ### Walking up the parents -/

/-- The walk ends before its steps run out: the names that it passed are different declared ones, and
no list has more of these than declarations. -/
theorem parentWalk_parentFault? {bean current : BeanDef} {steps : Nat} {seen : List String}
    (hnodup : seen.Nodup) (hseen : seen ⊆ ds.map (·.fullName))
    (hsteps : ds.length < seen.length + steps) :
    ds.ParentWalk bean seen current (ds.parentFault? bean steps seen current) := by
  induction steps generalizing seen current with
  | zero =>
    have hle := length_le_of_subset_fullNames hnodup hseen
    omega
  | succ steps ih =>
    rw [parentFault?]
    cases hname : current.parent with
    | none => exact .top hname
    | some name =>
      simp only
      cases hparent : ds.bean? name with
      | none => exact .lost hname hparent
      | some parent =>
        simp only
        split
        · rename_i hback
          exact .back hname hparent hback
        · rename_i hnew
          refine .up hname hparent hnew (ih (List.nodup_cons.2 ⟨hnew, hnodup⟩) ?_ ?_)
          · exact List.cons_subset.2 ⟨fullName_mem_of_bean? hparent, hseen⟩
          · rw [List.length_cons]
            omega

theorem parentWalk_lineFault? {b : BeanDef} (hb : .bean b ∈ ds) :
    ds.ParentWalk b [b.fullName] b (ds.lineFault? (.bean b)) := by
  refine parentWalk_parentFault? (List.nodup_singleton _) ?_ ?_
  · simpa using ⟨_, hb, rfl⟩
  · simp

/-- Above a bean whose walk ends at the top there is no endless way up. -/
theorem ParentWalk.acc (hnames : (ds.map (·.fullName)).Nodup) {bean current : BeanDef}
    {seen : List String} (h : ds.ParentWalk bean seen current none) :
    Acc ds.ParentOf current := by
  generalize hfound : (none : Option SchemaError) = found at h
  induction h with
  | top hnone =>
    refine ⟨_, fun p hp => ?_⟩
    rw [hp.named] at hnone
    cases hnone
  | lost => cases hfound
  | back => cases hfound
  | up hname hparent _ _ ih =>
    refine ⟨_, fun p hp => ?_⟩
    cases ((parentOf_iff_of_nodup hnames hp.child hname).1 hp).symm.trans hparent
    exact ih hfound

theorem not_transGen_self_of_acc {α : Type} {r : α → α → Prop} {a : α} (h : Acc r a) :
    ¬Relation.TransGen r a a := by
  have hacc := h.transGen
  clear h
  induction hacc with
  | intro a _ ih =>
    intro haa
    exact ih a haa haa

/-- Where all parents are declared and no bean stands above itself, the walk finds nothing: it only
ever passed beans at or below the one it is at. -/
theorem ParentWalk.eq_none (hnames : (ds.map (·.fullName)).Nodup)
    (hparents : ∀ b, .bean b ∈ ds → ∀ name, b.parent = some name →
      ∃ p, .bean p ∈ ds ∧ p.fullName = name)
    (hacyclic : ∀ b, ¬ds.Below b b) {bean current : BeanDef} {seen : List String}
    {found : Option SchemaError} (h : ds.ParentWalk bean seen current found)
    (hcurrent : .bean current ∈ ds)
    (hseen : ∀ name ∈ seen, ∃ b, .bean b ∈ ds ∧ b.fullName = name ∧
      Relation.ReflTransGen ds.ParentOf current b) : found = none := by
  induction h with
  | top _ => rfl
  | lost hname hnone =>
    obtain ⟨p, hp, rfl⟩ := hparents _ hcurrent _ hname
    simp [(bean?_eq_some_iff_of_nodup hnames).2 ⟨hp, rfl⟩] at hnone
  | @back _ _ parent _ hname hparent hback =>
    obtain ⟨b, hb, hbname, hpassed⟩ := hseen _ hback
    have hparentOf := (parentOf_iff_of_nodup hnames hcurrent hname).2 hparent
    have hsame : TypeDef.bean b = .bean parent :=
      List.inj_on_of_nodup_map hnames hb hparentOf.parent hbname
    cases hsame
    exact absurd (Relation.TransGen.head' hparentOf hpassed) (hacyclic _)
  | @up _ _ parent _ _ hname hparent _ _ ih =>
    have hparentOf := (parentOf_iff_of_nodup hnames hcurrent hname).2 hparent
    refine ih hparentOf.parent fun name hmem => ?_
    rcases List.mem_cons.1 hmem with rfl | hmem
    · exact ⟨parent, hparentOf.parent, rfl, .refl⟩
    · obtain ⟨b, hb, hbname, hpassed⟩ := hseen name hmem
      exact ⟨b, hb, hbname, .head hparentOf hpassed⟩

/-- No walk finds a fault exactly when all parents are declared and no bean stands above itself. -/
theorem lineFault?_eq_none_iff (hnames : (ds.map (·.fullName)).Nodup) :
    (∀ d ∈ ds, ds.lineFault? d = none) ↔
      (∀ b, .bean b ∈ ds → ∀ name, b.parent = some name → ∃ p, .bean p ∈ ds ∧ p.fullName = name) ∧
        ∀ b, ¬ds.Below b b := by
  constructor
  · intro hlines
    have hwalk : ∀ b, .bean b ∈ ds → ds.ParentWalk b [b.fullName] b none :=
      fun b hb => hlines _ hb ▸ parentWalk_lineFault? hb
    refine ⟨fun b hb name hname => ?_, fun b habove => ?_⟩
    · cases hwalk b hb with
      | top hnone => simp [hnone] at hname
      | up hname' hparent =>
        cases hname.symm.trans hname'
        exact ⟨_, (bean?_eq_some_iff_of_nodup hnames).1 hparent⟩
    · exact not_transGen_self_of_acc ((hwalk b habove.declared).acc hnames) habove
  · rintro ⟨hparents, hacyclic⟩ d hd
    cases d with
    | enum e => rfl
    | table t => rfl
    | bean b =>
      refine (parentWalk_lineFault? hd).eq_none hnames hparents hacyclic hd ?_
      simpa using ⟨b, hd, rfl, .refl⟩

/-! ### The line of a bean -/

theorem Line.unique (hnames : (ds.map (·.fullName)).Nodup) {b : BeanDef} {line line' : List BeanDef}
    (h : ds.Line b line) (h' : ds.Line b line') : line = line' := by
  induction h generalizing line' with
  | top hnone =>
    cases h' with
    | top _ => rfl
    | under hp _ => rw [hp.named] at hnone; cases hnone
  | under hp _ ih =>
    cases h' with
    | top hnone => rw [hp.named] at hnone; cases hnone
    | under hp' hline' =>
      cases hp.unique hnames hp'
      rw [ih hline']

theorem Line.declared {b owner : BeanDef} {line : List BeanDef} (h : ds.Line b line)
    (hb : .bean b ∈ ds) (howner : owner ∈ line) : .bean owner ∈ ds := by
  induction h with
  | top _ => exact List.mem_singleton.1 howner ▸ hb
  | under hp _ ih =>
    rcases List.mem_append.1 howner with howner | howner
    · exact ih hp.parent howner
    · exact List.mem_singleton.1 howner ▸ hb

/-- A way up that ended goes to the top when all parents are declared. -/
theorem line_ancestorsWithin (hnames : (ds.map (·.fullName)).Nodup)
    (hparents : ∀ b, .bean b ∈ ds → ∀ name, b.parent = some name →
      ∃ p, .bean p ∈ ds ∧ p.fullName = name) {steps : Nat} {b : BeanDef} (hb : .bean b ∈ ds)
    (hended : (ds.ancestorsWithin steps b).length < steps) :
    ds.Line b (b :: ds.ancestorsWithin steps b).reverse := by
  induction steps generalizing b with
  | zero => omega
  | succ steps ih =>
    rw [ancestorsWithin] at hended ⊢
    cases hname : b.parent with
    | none =>
      rw [parent?, hname]
      exact .top hname
    | some name =>
      obtain ⟨p, hp, rfl⟩ := hparents b hb name hname
      have hparent : ds.parent? b = some p := by
        rw [parent?, hname]
        exact (bean?_eq_some_iff_of_nodup hnames).2 ⟨hp, rfl⟩
      simp only [hparent, List.length_cons, Nat.add_lt_add_iff_right] at hended
      rw [hparent, List.reverse_cons]
      exact .under ⟨hp, hb, hname⟩ (ih hp hended)

theorem line_ancestors (hnames : (ds.map (·.fullName)).Nodup)
    (hlines : ∀ d ∈ ds, ds.lineFault? d = none) {b : BeanDef} (hb : .bean b ∈ ds) :
    ds.Line b (b :: ds.ancestors b).reverse := by
  refine line_ancestorsWithin hnames ((lineFault?_eq_none_iff hnames).1 hlines).1 hb ?_
  exact length_ancestorsWithin_lt (hlines _ hb) (List.nodup_singleton _)
    (by simpa using ⟨_, hb, rfl⟩) (by simp)

theorem walksEnd (ds : Declarations) : ds.WalksEnd :=
  ⟨fun _ hb => parentWalk_lineFault? hb, fun hnames hlines _ hb => line_ancestors hnames hlines hb⟩

/-! ### What stands inside a declaration -/

theorem means_iff_resolve? (hnames : (ds.map (·.fullName)).Nodup) {space name : String}
    {d : TypeDef} : ds.Means space name d ↔ ds.resolve? space name = some d := by
  have hfound := @named?_eq_some_iff_of_nodup ds hnames
  have hnone : ds.named? (qualify space name) = none ↔ ∀ e ∈ ds, e.fullName ≠ qualify space name := by
    simp [named?]
  unfold resolve?
  constructor
  · rintro (⟨hspace, hd, hname⟩ | ⟨hfree, hd, hname⟩)
    · rw [if_neg hspace, hfound.2 ⟨hd, hname⟩]
    · split
      · exact hfound.2 ⟨hd, hname⟩
      · rename_i hspace
        rw [hnone.2 (hfree hspace)]
        exact hfound.2 ⟨hd, hname⟩
  · intro h
    split at h
    · rename_i hspace
      obtain ⟨hd, hname⟩ := hfound.1 h
      exact .absolute (absurd hspace) hd hname
    · rename_i hspace
      split at h
      · rename_i e he
        cases h
        obtain ⟨hd, hname⟩ := hfound.1 he
        exact .qualified hspace hd hname
      · rename_i hfree
        obtain ⟨hd, hname⟩ := hfound.1 h
        exact .absolute (fun _ => hnone.1 hfree) hd hname

theorem isValueType_iff {owner : BeanDef} {name : String} :
    ds.isValueType owner name ↔ ∃ d, ds.fieldRef? owner name = some d ∧ d.kind ≠ .table := by
  unfold isValueType
  cases ds.fieldRef? owner name with
  | none => simp
  | some d => cases d <;> simp [TypeDef.kind]

theorem hasBadKey_eq_false_iff {owner : BeanDef} {type : TypeExpr} :
    ds.hasBadKey owner type = false ↔ ∀ name value, type.nonNull = .map (.named name) value →
      ∃ e, ds.fieldRef? owner name = some (.enum e) := by
  unfold hasBadKey
  split
  · rename_i name value hmap
    rw [hmap, Bool.not_eq_false', isEnumType]
    constructor
    · rintro henum _ _ ⟨⟩
      split at henum
      · exact ⟨_, ‹_›⟩
      · cases henum
    · intro henum
      obtain ⟨e, he⟩ := henum name value rfl
      rw [he]
  · rename_i hother
    exact iff_of_true rfl fun name value hmap => absurd hmap (hother name value)

theorem names_hierarchyFields (ds : Declarations) (b : BeanDef) :
    (ds.hierarchyFields b).map (·.2.name) =
      (b :: ds.ancestors b).reverse.flatMap fun owner => owner.fields.map (·.name) := by
  rw [hierarchyFields, List.map_flatMap]
  simp only [List.map_map, Function.comp_def]

/-- The checks of the fields of all beans, inherited ones included, ask of the own fields of each bean
that their types make sense, and of each line that no name comes twice in it. -/
theorem beanFaults_eq_none_iff (hnames : (ds.map (·.fullName)).Nodup)
    (hlines : ∀ d ∈ ds, ds.lineFault? d = none) :
    (∀ b, .bean b ∈ ds → ds.bodyFault? (.bean b) = none) ↔
      (∀ b, .bean b ∈ ds → ∀ line, ds.Line b line →
        (line.flatMap fun owner => owner.fields.map (·.name)).Nodup) ∧
      (∀ b, .bean b ∈ ds → ∀ f ∈ b.fields, ∀ name ∈ f.type.names,
        ∃ d, ds.Means b.space name d ∧ d.kind ≠ .table) ∧
      ∀ b, .bean b ∈ ds → ∀ f ∈ b.fields, ∀ name value,
        f.type.nonNull = .map (.named name) value → ∃ e, ds.Means b.space name (.enum e) := by
  have hline : ∀ b, .bean b ∈ ds → ds.Line b (b :: ds.ancestors b).reverse :=
    fun b hb => line_ancestors hnames hlines hb
  have hmem : ∀ {b f}, f ∈ ds.hierarchyFields b ↔
      f.1 ∈ (b :: ds.ancestors b).reverse ∧ f.2 ∈ f.1.fields := by
    intro b f
    simp only [hierarchyFields, List.mem_flatMap, List.mem_map]
    constructor
    · rintro ⟨owner, howner, field, hfield, rfl⟩
      exact ⟨howner, hfield⟩
    · rintro ⟨howner, hfield⟩
      exact ⟨f.1, howner, f.2, hfield, rfl⟩
  simp only [bodyFault?, fieldFault?_eq_none_iff, isValueType_iff, hasBadKey_eq_false_iff,
    means_iff_resolve? hnames, names_hierarchyFields, List.not_mem_nil, not_false_eq_true,
    implies_true, true_and]
  constructor
  · intro hfields
    have hown : ∀ b, .bean b ∈ ds → ∀ f ∈ b.fields, (b, f) ∈ ds.hierarchyFields b :=
      fun b _ f hf => hmem.2 ⟨by simp, hf⟩
    refine ⟨fun b hb line hb' => ?_, fun b hb f hf => ?_, fun b hb f hf => ?_⟩
    · exact hb'.unique hnames (hline b hb) ▸ (hfields b hb).1
    · exact ((hfields b hb).2 _ (hown b hb f hf)).1
    · exact ((hfields b hb).2 _ (hown b hb f hf)).2
  · rintro ⟨hnodup, htypes, hkeys⟩ b hb
    refine ⟨hnodup b hb _ (hline b hb), fun f hf => ?_⟩
    obtain ⟨howner, hfield⟩ := hmem.1 hf
    have hdeclared := (hline b hb).declared hb howner
    exact ⟨htypes f.1 hdeclared f.2 hfield, hkeys f.1 hdeclared f.2 hfield⟩

theorem soundTable_iff (hnames : (ds.map (·.fullName)).Nodup)
    (hlines : ∀ d ∈ ds, ds.lineFault? d = none) {t : TableDef} :
    ds.tableFault? t = none ↔ ds.SoundTable t := by
  rw [tableFault?_eq_none_iff, SoundTable]
  refine exists_congr fun row => ?_
  rw [bean?_eq_some_iff_of_nodup hnames, and_assoc]
  refine and_congr_right fun hrow => and_congr_right fun _ => and_congr_left fun _ => ?_
  refine forall_congr' fun index => imp_congr_right fun _ => ?_
  constructor
  · rintro ⟨f, hf, hname⟩
    obtain ⟨owner, howner, hf⟩ := List.mem_flatMap.1 hf
    obtain ⟨field, hfield, rfl⟩ := List.mem_map.1 hf
    exact ⟨_, line_ancestors hnames hlines hrow, owner, howner, field, hfield, hname⟩
  · rintro ⟨line, hline, owner, howner, field, hfield, hname⟩
    cases hline.unique hnames (line_ancestors hnames hlines hrow)
    exact ⟨(owner, field), List.mem_flatMap.2 ⟨owner, howner, List.mem_map_of_mem hfield⟩, hname⟩

/-! ### The order of the declarations -/

theorem Line.mono (hsub : ds ⊆ ds') {b : BeanDef} {line : List BeanDef} (h : ds.Line b line) :
    ds'.Line b line := by
  induction h with
  | top hnone => exact .top hnone
  | under hp _ ih => exact .under ⟨hsub hp.parent, hsub hp.child, hp.named⟩ ih

theorem Means.of_perm (hperm : ds.Perm ds') {space name : String} {d : TypeDef}
    (h : ds.Means space name d) : ds'.Means space name d := by
  cases h with
  | qualified hspace hd hname => exact .qualified hspace (hperm.subset hd) hname
  | absolute hfree hd hname =>
    exact .absolute (fun hspace e he => hfree hspace e (hperm.symm.subset he)) (hperm.subset hd)
      hname

theorem Consistent.of_perm (h : ds.Consistent) (hperm : ds.Perm ds') : ds'.Consistent where
  names := (hperm.map _).nodup h.names
  parents b hb name hname := by
    obtain ⟨p, hp, hpname⟩ := h.parents b (hperm.symm.subset hb) name hname
    exact ⟨p, hperm.subset hp, hpname⟩
  acyclic b habove := by
    have hback : ∀ p c, ds'.ParentOf p c → ds.ParentOf p c := fun p c hp =>
      ⟨hperm.symm.subset hp.parent, hperm.symm.subset hp.child, hp.named⟩
    exact h.acyclic b (Relation.TransGen.mono hback b b habove)
  items e he := h.items e (hperm.symm.subset he)
  fields b hb line hline := h.fields b (hperm.symm.subset hb) line (hline.mono hperm.symm.subset)
  types b hb f hf name hname := by
    obtain ⟨d, hd, hkind⟩ := h.types b (hperm.symm.subset hb) f hf name hname
    exact ⟨d, hd.of_perm hperm, hkind⟩
  keys b hb f hf name value hmap := by
    obtain ⟨e, he⟩ := h.keys b (hperm.symm.subset hb) f hf name value hmap
    exact ⟨e, he.of_perm hperm⟩
  tables t ht := by
    obtain ⟨row, hrow, hname, hindex, hmode⟩ := h.tables t (hperm.symm.subset ht)
    refine ⟨row, hperm.subset hrow, hname, fun index hi => ?_, hmode⟩
    obtain ⟨line, hline, howner⟩ := hindex index hi
    exact ⟨line, hline.mono hperm.subset, howner⟩

/-! ### What is accepted -/

theorem fault?_eq_none_iff_consistent : ds.fault? = none ↔ ds.Consistent := by
  rw [fault?_eq_none_iff]
  have hkinds : (∀ d ∈ ds, ds.bodyFault? d = none) ↔
      (∀ e, .enum e ∈ ds → ds.bodyFault? (.enum e) = none) ∧
        (∀ b, .bean b ∈ ds → ds.bodyFault? (.bean b) = none) ∧
          ∀ t, .table t ∈ ds → ds.bodyFault? (.table t) = none := by
    refine ⟨fun h => ⟨fun e => h _, fun b => h _, fun t => h _⟩, fun ⟨he, hb, ht⟩ d hd => ?_⟩
    cases d with
    | enum e => exact he e hd
    | bean b => exact hb b hd
    | table t => exact ht t hd
  have hitems : ∀ e, ds.bodyFault? (.enum e) = none ↔ (e.items.map (·.name)).Nodup := by
    intro e
    simp [bodyFault?, itemFault?, firstRepeated?_eq_none_iff]
  simp only [hkinds, hitems]
  constructor
  · rintro ⟨hnames, hlines, hitem, hbean, htable⟩
    obtain ⟨hparents, hacyclic⟩ := (lineFault?_eq_none_iff hnames).1 hlines
    obtain ⟨hfields, htypes, hkeys⟩ := (beanFaults_eq_none_iff hnames hlines).1 hbean
    exact ⟨hnames, hparents, hacyclic, hitem, hfields, htypes, hkeys,
      fun t ht => (soundTable_iff hnames hlines).1 (htable t ht)⟩
  · intro h
    have hlines := (lineFault?_eq_none_iff h.names).2 ⟨h.parents, h.acyclic⟩
    exact ⟨h.names, hlines, h.items,
      (beanFaults_eq_none_iff h.names hlines).2 ⟨h.fields, h.types, h.keys⟩,
      fun t ht => (soundTable_iff h.names hlines).2 (h.tables t ht)⟩

theorem exists_ofTypes_iff : (∃ g, TypeGraph.ofTypes ds = .ok g ∧ g.types = ds) ↔ ds.Consistent := by
  rw [← fault?_eq_none_iff_consistent]
  unfold TypeGraph.ofTypes
  split
  · rename_i hnone
    exact iff_of_true ⟨_, rfl, rfl⟩ hnone
  · rename_i e hsome
    simp [hsome]

/-- Checking declarations ends by itself, accepts them exactly when they are consistent, and does not
depend on their order. -/
theorem accepts_iff_consistent (ds : Declarations) : ds.WalksEnd ∧
    ((∃ g, TypeGraph.ofTypes ds = .ok g ∧ g.types = ds) ↔ ds.Consistent) ∧
    ∀ ds', ds.Perm ds' → ((∃ g, TypeGraph.ofTypes ds = .ok g ∧ g.types = ds) ↔
      ∃ g, TypeGraph.ofTypes ds' = .ok g ∧ g.types = ds') := by
  refine ⟨walksEnd ds, exists_ofTypes_iff, fun ds' hperm => ?_⟩
  rw [exists_ofTypes_iff, exists_ofTypes_iff]
  exact ⟨fun h => h.of_perm hperm, fun h => h.of_perm hperm.symm⟩

namespace Wares

/-- A ware of one namespace with a parent in another one, whose field means a color of that other
namespace, and a table of wares under their inherited key. -/
def types : Declarations :=
  [.enum ⟨"base", "Color", false, [], [⟨"Red", 1, none, none⟩], none⟩,
    .bean ⟨"base", "Thing", none, true, [], [⟨"id", .primitive .int, none⟩,
      ⟨"tints", .nullable (.map (.named "Color") (.named "shop.Ware")), none⟩], none⟩,
    .bean ⟨"shop", "Ware", some "base.Thing", false, [], [⟨"price", .primitive .long, none⟩], none⟩,
    .table ⟨"shop", "TbWare", "shop.Ware", some "id", .map, [], none, none⟩]

theorem reverse_accepted : types.Perm types.reverse ∧
    ∃ g, TypeGraph.ofTypes types.reverse = .ok g ∧ g.types = types.reverse := by
  have hperm : types.Perm types.reverse := (List.reverse_perm types).symm
  have haccepted : ∃ g, TypeGraph.ofTypes types = .ok g ∧ g.types = types :=
    exists_ofTypes_iff.2 (fault?_eq_none_iff_consistent.1 (by decide))
  exact ⟨hperm, ((accepts_iff_consistent types).2.2 types.reverse hperm).1 haccepted⟩

end Wares

end ConfigTables.Declarations
