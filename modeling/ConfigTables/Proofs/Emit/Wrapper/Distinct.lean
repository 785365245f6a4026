import ConfigTables.Proofs.Emit.Run
import ConfigTables.Proofs.Emit.Wrapper.Defined
import ConfigTables.Proofs.Naming.Spelling

/-!
    Which identifiers of the generated code are the same, in the style that writes types and enum
    items in Pascal case and fields in snake case. Names that differ may be spelled alike, and nothing
    keeps them apart: a type shows the words of its full name and neither its dots nor the case of
    letters, and an enum over instances one more word that another name may end in. Fields are the
    same when their words are, since an underscore at the end stands behind keywords only. Of an enum
    no two items with one value are written, but two with one name may be. -/

namespace ConfigTables.Wrapper

/-! ### Types -/

/-- What a type is called after: a name, and whether it is that of an enum over instances. -/
structure TypeName where
  name : String
  ofKinds : Bool
  deriving DecidableEq

namespace TypeName

/-- The identifier of a type. -/
def ident (n : Names) (t : TypeName) : String :=
  if t.ofKinds then n.typeIdent t.name ++ "Kind" else n.typeIdent t.name

/-- The words that this identifier shows. -/
def words (t : TypeName) : List (List Char) :=
  shownWords (smallWords t.name) ++ if t.ofKinds then ["kind".toList] else []

end TypeName

/-- The types that a bean has: its struct, and the enum over its instances. -/
def Names.beanTypes (n : Names) (b : BeanDef) : List TypeName :=
  (if b.isAbstract then [] else [⟨b.fullName, false⟩]) ++
    (if n.hasKinds b then [⟨b.fullName, true⟩] else [])

/-- The types of a run: those of the enums, those of the beans, and the manager. -/
def Names.allTypes (n : Names) (ctx : Context) : List TypeName :=
  ctx.closure.enums.map (fun e => ⟨e.fullName, false⟩) ++ ctx.closure.beans.flatMap n.beanTypes ++
    [⟨ctx.target.manager, false⟩]

section Types
variable {ctx : Context} {n : Names} {file : ManagerFile}

theorem idents_beanTypes {b : BeanDef} {decl : BeanDecl} (h : n.beanDecl b = .ok decl) :
    (decl.definitions n).map (·.1) = (n.beanTypes b).map (·.ident n) := by
  have hdescribes := Names.beanDecl_eq_ok h
  rw [BeanDecl.definitions, Names.beanTypes, hdescribes.isAbstract, hdescribes.hasKinds,
    hdescribes.ident, hdescribes.kindIdent, Names.beanIdent]
  cases b.isAbstract <;> cases n.hasKinds b <;> rfl

/-- The file defines the types of the run, each under its identifier, in order. -/
theorem idents_definitions (hfile : managerFile ctx n = .ok file) :
    (file.definitions n).map (·.1) = (n.allTypes ctx).map (·.ident n) := by
  obtain ⟨hident, henums, hbeans, _⟩ := managerFile_eq_ok hfile
  have hflat : file.beans.flatMap (fun decl => (decl.definitions n).map (·.1)) =
      ctx.closure.beans.flatMap fun b => (n.beanTypes b).map (·.ident n) := by
    rw [List.flatMap_def, List.flatMap_def, map_eq_of_mapM hbeans fun _ _ => idents_beanTypes]
  simp only [ManagerFile.definitions, Names.allTypes, List.map_append, List.map_flatMap, hflat,
    henums, hident, List.map_map, List.map_cons, List.map_nil]
  rfl

end Types

/-- A dot in a name separates words like an underscore. -/
theorem smallWords_flatName (name : String) : smallWords (Names.flatName name) = smallWords name := by
  rw [smallWords, Names.flatName, String.toList_ofList, Text.nameWords, splitOnP_map]
  · rfl
  · intro c hc
    rw [if_neg]
    rintro rfl
    revert hc
    decide
  · intro c
    split
    · rename_i hdot
      rw [hdot]
      decide
    · rfl

theorem isAscii_flatName {name : String} (h : IsAscii name) : IsAscii (Names.flatName name) := by
  rw [IsAscii, Names.flatName, String.toList_ofList]
  refine List.forall_mem_map.2 fun c hc => ?_
  split
  · decide
  · exact h c hc

namespace TypeName
variable {n : Names} {t t' : TypeName}

theorem shown_words (h : IsAscii t.name) : Shown t.words := by
  have hshown := shown_shownWords (isSmall_of_mem_smallWords h)
  rw [words]
  cases t.ofKinds with
  | false => simpa using hshown
  | true =>
    have hkind : "kind".toList.all Text.isSmall = true := by decide
    exact hshown.concat ⟨by decide, List.all_eq_true.1 hkind⟩ rfl

theorem toList_ident (hstyle : n.style.typeName = .pascal) (h : IsAscii t.name) :
    (t.ident n).toList = t.words.flatMap raised := by
  have htype : (n.typeIdent t.name).toList = (shownWords (smallWords t.name)).flatMap raised := by
    rw [Names.typeIdent, hstyle, Convention.toList_pascal (isAscii_flatName h), smallWords_flatName]
  rw [ident, words, List.flatMap_append, ← htype]
  cases t.ofKinds with
  | false => simp
  | true => rw [if_pos rfl, if_pos rfl, String.toList_append]; rfl

/-- Types called after names of ASCII characters are told apart by the words that they show. -/
theorem ident_eq_iff (hstyle : n.style.typeName = .pascal) (h : IsAscii t.name)
    (h' : IsAscii t'.name) : t.ident n = t'.ident n ↔ t.words = t'.words := by
  rw [← String.toList_inj, toList_ident hstyle h, toList_ident hstyle h']
  exact ⟨(shown_words h).eq_of_flatMap_raised (shown_words h'), fun heq => by rw [heq]⟩

end TypeName

/-! ### Fields -/

/-- The underscore behind keywords makes no two identifiers the same, unless one of them looks like a
keyword with an underscore already. -/
theorem clearOfKeywords_eq_iff {a b : String} (ha : ∀ word ∈ keywords, a ≠ word ++ "_")
    (hb : ∀ word ∈ keywords, b ≠ word ++ "_") : clearOfKeywords a = clearOfKeywords b ↔ a = b := by
  refine ⟨fun h => ?_, fun h => by rw [h]⟩
  unfold clearOfKeywords at h
  split at h <;> split at h
  · exact (String.append_left_inj _).1 h
  · exact absurd h.symm (hb a ‹_›)
  · exact absurd h (ha b ‹_›)
  · exact h

theorem ne_append_of_getLast? {a : String} (ha : a.toList.getLast? ≠ some '_') (word : String) :
    a ≠ word ++ "_" := by
  rintro rfl
  rw [String.toList_append] at ha
  exact ha List.getLast?_concat

/-- Fields in snake case have one identifier exactly when their names have the same words. -/
theorem Names.fieldIdent_eq_iff {n : Names} (hstyle : n.style.field = .snake) {a b : String} :
    n.fieldIdent a = n.fieldIdent b ↔ smallWords a = smallWords b := by
  have hclear : ∀ name, ∀ word ∈ keywords, Convention.snake.apply name ≠ word ++ "_" :=
    fun name word _ => ne_append_of_getLast? (Convention.getLast?_snake name) word
  rw [fieldIdent, fieldIdent, hstyle, clearOfKeywords_eq_iff (hclear a) (hclear b)]
  exact Convention.snake_apply_eq_iff

/-! ### Items -/

/-- Item names with one variant: they are the same in Pascal case, or one begins with a digit there
and the other one with the letter that is put in front of digits. -/
def SameVariant (a b : String) : Prop :=
  let a' := Convention.pascal.apply a
  let b' := Convention.pascal.apply b
  a' = b' ∨ (beginsWithDigit a'.toList ∧ b' = "V" ++ a') ∨ (beginsWithDigit b'.toList ∧ a' = "V" ++ b')

theorem Names.itemIdent_eq_iff {n : Names} (hstyle : n.style.item = .pascal) {a b : String} :
    n.itemIdent a = n.itemIdent b ↔ SameVariant a b := by
  have hident : ∀ name, n.itemIdent name =
      if beginsWithDigit (Convention.pascal.apply name).toList then
        "V" ++ Convention.pascal.apply name
      else Convention.pascal.apply name := by
    intro name
    rw [itemIdent, hstyle]
    rfl
  have hletter : ∀ s : String, beginsWithDigit ("V" ++ s).toList = false := by
    intro s
    rw [String.toList_append]
    rfl
  rw [hident a, hident b, SameVariant]
  generalize Convention.pascal.apply a = x, Convention.pascal.apply b = y
  have hcancel : "V" ++ x = "V" ++ y ↔ x = y := by
    rw [← String.toList_inj, String.toList_append, String.toList_append, List.append_cancel_left_eq,
      String.toList_inj]
  cases hx : beginsWithDigit x.toList <;> cases hy : beginsWithDigit y.toList
  · simp
  · grind
  · grind
  · grind

/-- The items that are written have different values, none of them one that was seen before. -/
theorem nodup_distinctValues (items : List EnumItem) (seen : List Int32) :
    ((distinctValues seen items).map (·.value)).Nodup ∧
      ∀ i ∈ distinctValues seen items, i.value ∉ seen := by
  induction items generalizing seen with
  | nil => simp [distinctValues]
  | cons i rest ih =>
    rw [distinctValues]
    split
    · exact ih seen
    · rename_i hnew
      obtain ⟨hnodup, hrest⟩ := ih (i.value :: seen)
      refine ⟨List.nodup_cons.2 ⟨fun hmem => ?_, hnodup⟩, List.forall_mem_cons.2 ⟨hnew, ?_⟩⟩
      · obtain ⟨k, hk, hvalue⟩ := List.mem_map.1 hmem
        exact hrest k hk (hvalue ▸ List.mem_cons_self)
      · exact fun k hk hseen => hrest k hk (List.mem_cons_of_mem _ hseen)

/-! ### The file about all tables -/

/-- What tells the identifiers of a file apart. The types are called after different names, and by
names of ASCII characters are the same just when they show the same words. The fields of a bean are
the same when their names have the same words, the variants of an enum when Pascal case and the
letter in front of digits do not tell their names apart. Values of variants are never the same. -/
structure ToldApart (ctx : Context) (n : Names) (file : ManagerFile) : Prop where
  written : ∀ d ∈ file.definitions n, d.2 <:+: file.code n
  types : (file.definitions n).map (·.1) = (n.allTypes ctx).map (·.ident n)
  words : (∀ t ∈ n.allTypes ctx, IsAscii t.name) →
    (((file.definitions n).map (·.1)).Nodup ↔ ((n.allTypes ctx).map TypeName.words).Nodup)
  fields : ∀ decl ∈ file.beans, ∃ b ∈ ctx.closure.beans, n.beanDecl b = .ok decl ∧
    ((decl.fields.map (·.ident)).Nodup ↔
      ((n.types.hierarchyFields b).map fun f => smallWords f.2.name).Nodup)
  variants : ∀ decl ∈ file.enums, decl.flags = false → ∃ e ∈ ctx.closure.enums,
    decl = n.enumDecl e ∧ ((decl.items.map (·.variant)).Nodup ↔
      (distinctValues [] e.items).Pairwise fun i k => ¬SameVariant i.name k.name)
  values : ∀ decl ∈ file.enums, decl.flags = false → (decl.items.map (·.value)).Nodup

section File
variable {ctx : Context} {n : Names} {file : ManagerFile}

theorem nodup_fields_iff (hstyle : n.style.field = .snake) {b : BeanDef} {decl : BeanDecl}
    (h : n.beanDecl b = .ok decl) : (decl.fields.map (·.ident)).Nodup ↔
      ((n.types.hierarchyFields b).map fun f => smallWords f.2.name).Nodup := by
  have hidents : decl.fields.map (·.ident) =
      (n.types.hierarchyFields b).map fun f => n.fieldIdent f.2.name :=
    map_eq_of_mapM (Names.beanDecl_eq_ok h).fields fun _ _ hf => (Names.fieldDecl_eq_ok hf).ident
  rw [hidents]
  exact nodup_map_iff fun _ _ _ _ => Names.fieldIdent_eq_iff hstyle

/-- Unless an enum is one of flags, its variants stand for the first items of their values. -/
theorem items_enumDecl {e : EnumDef} (h : (n.enumDecl e).flags = false) :
    (n.enumDecl e).items = (distinctValues [] e.items).map n.itemDecl := by
  rw [Names.enumDecl, if_neg]
  simpa [Names.enumDecl] using h

theorem toldApart_of_managerFile (htype : n.style.typeName = .pascal) (hfield : n.style.field = .snake)
    (hitem : n.style.item = .pascal) (hfile : managerFile ctx n = .ok file) :
    ToldApart ctx n file := by
  obtain ⟨_, henums, hbeans, _⟩ := managerFile_eq_ok hfile
  have hidents := idents_definitions hfile
  have henum : ∀ decl ∈ file.enums, ∃ e ∈ ctx.closure.enums, decl = n.enumDecl e := by
    rw [henums]
    exact List.forall_mem_map.2 fun e he => ⟨e, he, rfl⟩
  refine ⟨fun _ => file.infix_code, hidents, fun hascii => ?_, fun decl hdecl => ?_,
    fun decl hdecl hflags => ?_, fun decl hdecl hflags => ?_⟩
  · rw [hidents]
    exact nodup_map_iff fun t ht t' ht' =>
      TypeName.ident_eq_iff htype (hascii t ht) (hascii t' ht')
  · obtain ⟨b, hb, hdecl⟩ := exists_of_mem_mapM hbeans hdecl
    exact ⟨b, hb, hdecl, nodup_fields_iff hfield hdecl⟩
  · obtain ⟨e, he, rfl⟩ := henum decl hdecl
    refine ⟨e, he, rfl, ?_⟩
    rw [items_enumDecl hflags, List.map_map, List.Nodup, List.pairwise_map]
    exact List.Pairwise.iff fun i k => not_congr (Names.itemIdent_eq_iff hitem)
  · obtain ⟨e, _, rfl⟩ := henum decl hdecl
    rw [items_enumDecl hflags, List.map_map]
    exact (nodup_distinctValues e.items []).1

end File

/-- A run in the style with underscores that succeeds writes, as its first file, code in which just
those identifiers are the same that spelling does not tell apart. -/
theorem identifiers_toldApart (g : TypeGraph) (ctx : Context) (files : List OutputFile)
    (hover : ctx.Over g) (hstyle : ctx.codeStyle targetName "rust-default" = .ok .underscored)
    (hrun : target.run ctx = .ok files) : ∃ file rest,
      managerFile ctx ⟨g.types, .underscored⟩ = .ok file ∧
      files = ⟨target.manifestFile ctx, target.header ++ (file.code ⟨g.types, .underscored⟩).text⟩ ::
        rest ∧
      ToldApart ctx ⟨g.types, .underscored⟩ file := by
  have hnames : namesOf ctx = .ok ⟨g.types, .underscored⟩ :=
    namesOf_eq_ok_iff.2 ⟨hstyle, hover.fixed.1 ▸ rfl⟩
  obtain ⟨file, hfile⟩ := exists_managerFile (n := ⟨g.types, .underscored⟩) rfl
    (fun _ => hover.declared_bean) hover.declared_table
  obtain ⟨_, hgives⟩ := Target.run_eq_ok_iff.1 hrun
  obtain ⟨first, rest, ⟨body, hbody, rfl⟩, _, rfl⟩ := List.forall₂_cons_left_iff.1 hgives
  cases (manifestBody_of_managerFile hnames hfile).symm.trans hbody
  exact ⟨file, rest, hfile, rfl, toldApart_of_managerFile rfl rfl rfl hfile⟩

namespace Rewards

/-- A bean with two fields of the same words. -/
def itemReward : BeanDef := ⟨"", "ItemReward", none, false, [],
  [⟨"itemId", .primitive .int, none⟩, ⟨"item_id", .primitive .int, none⟩], none⟩

/-- A bean in a namespace, with the words of the other one. -/
def reward : BeanDef :=
  ⟨"item", "Reward", none, false, [], [⟨"extra", .sequence .list (.named "ItemReward"), none⟩], none⟩

/-- An enum with two items of the same words. -/
def currency : EnumDef :=
  ⟨"", "Currency", false, [], [⟨"GOLD", 0, none, none⟩, ⟨"Gold", 1, none, none⟩], none⟩

/-- A table of rewards. -/
def table : TableDef := ⟨"", "TbReward", "item.Reward", none, .list, [], none, none⟩

/-- Both beans, the enum and the table. -/
def graph : TypeGraph :=
  ⟨[.bean itemReward, .bean reward, .enum currency, .table table], by decide⟩

/-- The names of a run over the graph. -/
def names : Names := ⟨graph.types, .underscored⟩

/-- The theorem applies to a run over the graph. -/
theorem rewards_toldApart : ∃ ctx files file rest, ctx.Over graph ∧
    ctx.codeStyle targetName "rust-default" = .ok .underscored ∧ target.run ctx = .ok files ∧
    managerFile ctx names = .ok file ∧
    files = ⟨target.manifestFile ctx, target.header ++ (file.code names).text⟩ :: rest ∧
    ToldApart ctx names file := by
  obtain ⟨ctx, files, hover, _, _, hnames, hrun⟩ :=
    exists_run graph ⟨"client", "Tables", "", []⟩ [table] rfl (by decide +kernel)
  have hstyle := (namesOf_eq_ok_iff.1 hnames).1
  obtain ⟨file, rest, hfile, hfiles, htold⟩ :=
    identifiers_toldApart graph ctx files hover hstyle hrun
  exact ⟨ctx, files, file, rest, hover, hstyle, hrun, hfile, hfiles, htold⟩

/-- The run succeeds although two structs have one name, as have two fields of one of them and two
variants of the enum. -/
theorem rewards_clash : ∃ ctx files file, ctx.Over graph ∧
    ctx.codeStyle targetName "rust-default" = .ok .underscored ∧ target.run ctx = .ok files ∧
    managerFile ctx names = .ok file ∧ ¬((file.definitions names).map (·.1)).Nodup ∧
    (∃ decl ∈ file.beans, decl.isAbstract = false ∧ ¬(decl.fields.map (·.ident)).Nodup) ∧
    ∃ decl ∈ file.enums, decl.flags = false ∧ ¬(decl.items.map (·.variant)).Nodup := by
  obtain ⟨ctx, files, hover, _, htables, hnames, hrun⟩ :=
    exists_run graph ⟨"client", "Tables", "", []⟩ [table] rfl (by decide +kernel)
  obtain ⟨file, hfile⟩ := exists_managerFile (n := names) rfl
    (fun _ => hover.declared_bean) hover.declared_table
  obtain ⟨_, henums, hbeans, _⟩ := managerFile_eq_ok hfile
  have hneeded : graph.types.Needed ctx.exportTables ctx.target.groups (.bean reward) :=
    .row (t := table) (htables ▸ List.mem_singleton_self table) (by decide)
  have hreward : reward ∈ ctx.closure.beans := hover.mem_beans_iff.2 hneeded
  have hitemReward : itemReward ∈ ctx.closure.beans :=
    hover.mem_beans_iff.2 (hneeded.mention (by decide))
  refine ⟨ctx, files, file, hover, (namesOf_eq_ok_iff.1 hnames).1, hrun, hfile,
    fun hnodup => ?_, ?_, ?_⟩
  · -- different names with one identifier, so the list of identifiers repeats it
    rw [idents_definitions hfile] at hnodup
    have hmem : ∀ b ∈ ctx.closure.beans, b.isAbstract = false →
        ⟨b.fullName, false⟩ ∈ names.allTypes ctx := by
      intro b hb hconcrete
      refine List.mem_append_left _ (List.mem_append_right _ (List.mem_flatMap.2 ⟨b, hb, ?_⟩))
      rw [Names.beanTypes, hconcrete]
      exact List.mem_cons_self
    have hsame := List.inj_on_of_nodup_map hnodup (hmem reward hreward rfl)
      (hmem itemReward hitemReward rfl) (by decide +kernel)
    exact absurd hsame (by decide)
  · obtain ⟨decl, hdecl, hdecl'⟩ := exists_of_mapM_eq_ok hbeans hitemReward
    refine ⟨decl, hdecl, (Names.beanDecl_eq_ok hdecl').isAbstract, ?_⟩
    rw [nodup_fields_iff rfl hdecl']
    decide +kernel
  · refine ⟨names.enumDecl currency, ?_, rfl, by decide +kernel⟩
    rw [henums]
    exact List.mem_map_of_mem (hover.mem_enums_iff.2 (by decide))

end Rewards

end ConfigTables.Wrapper
