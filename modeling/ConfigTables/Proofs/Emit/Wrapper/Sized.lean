import ConfigTables.Proofs.Emit.Wrapper.Keywords
import Mathlib.Logic.Relation
import Mathlib.Order.OrderIsoNat

/-!
    The sizes of the generated types. Beans may mention each other in any way, but a type has a size
    only if those that it holds by value do not lead back to it. A field holds no bean by value:
    outside all containers a bean is boxed, also where it may be missing, and a container has its
    elements behind a pointer. What remains is the enum over instances, which holds their structs.
    So nothing that is held by value holds anything by value itself. -/

namespace ConfigTables.Wrapper

/-! ### Holding by value -/

/-- A form holds a bean by value, with neither a box nor a vector in between. -/
inductive TypeForm.Embeds (b : BeanDef) : TypeForm → Prop
  | bean : Embeds b (.bean b)
  | option {inner : TypeForm} : Embeds b inner → Embeds b (.option inner)

/-- A type of a file holds another one by value: a struct the types of beans in its fields, and an
enum over instances their structs. -/
inductive Holds (n : Names) (file : ManagerFile) : TypeName → TypeName → Prop
  | field {decl : BeanDecl} {f : FieldDecl} {b : BeanDef} : decl ∈ file.beans →
      decl.isAbstract = false → f ∈ decl.fields → f.form.Embeds b →
      Holds n file ⟨decl.fullName, false⟩ ⟨b.fullName, n.hasKinds b⟩
  | variant {decl : BeanDecl} {v : VariantDecl} : decl ∈ file.beans → decl.hasKinds = true →
      v ∈ decl.variants → Holds n file ⟨decl.fullName, true⟩ ⟨v.tag, false⟩

/-- Each chain of types that hold each other by value comes to an end: it does not go on for ever,
and does not lead back to where it began. What is held is a struct that stands in a line of the enum
which holds it. If all identifiers of types are different, it does not matter that code tells types
apart by these alone. -/
structure FinitelySized (n : Names) (file : ManagerFile) : Prop where
  wellFounded : WellFounded (flip (Holds n file))
  chain : ∀ types : Nat → TypeName, ∃ k, ¬Holds n file (types k) (types (k + 1))
  acyclic : ∀ t, ¬Relation.TransGen (Holds n file) t t
  written : ∀ s t, Holds n file s t → ∃ code code', (s.ident n, code) ∈ file.definitions n ∧
    (t.ident n, code') ∈ file.definitions n ∧
    "    " ++ (t.ident n ++ "(" ++ t.ident n ++ "),") ∈ code
  named : ((file.definitions n).map (·.1)).Nodup →
    WellFounded (flip (Relation.Map (Holds n file) (·.ident n) (·.ident n)))

/-- A relation without two steps in a row is well-founded. -/
theorem wellFounded_of_single {α : Type*} {r : α → α → Prop} (h : ∀ a b c, r a b → ¬r b c) :
    WellFounded (flip r) :=
  ⟨fun _ => .intro _ fun b hab => .intro b fun c hbc => absurd hbc (h _ b c hab)⟩

/-- Only a type that does not have to be boxed embeds a bean. -/
theorem TypeForm.Embeds.unboxed {ds : Declarations} {scope b : BeanDef} {type : TypeExpr}
    {box : Bool} {form : TypeForm} (h : ofType ds scope box type = .ok form) (hb : form.Embeds b) :
    box = false := by
  induction type generalizing form with
  | primitive p => cases h; cases p <;> cases hb
  | named name =>
    rw [ofType] at h
    split at h
    · cases h
      cases hb
    · cases h
      cases box with
      | false => rfl
      | true => cases hb
    · cases h
  | sequence kind element _ =>
    obtain ⟨inner, _, h⟩ := bind_eq_ok_iff.1 h
    cases h
    cases hb
  | map key value _ _ =>
    obtain ⟨k, _, h⟩ := bind_eq_ok_iff.1 h
    obtain ⟨v, _, h⟩ := bind_eq_ok_iff.1 h
    cases h
    cases hb
  | nullable inner ih =>
    obtain ⟨form, hform, h⟩ := bind_eq_ok_iff.1 h
    cases h
    cases hb with
    | option hb => exact ih hform hb

section
variable {g : TypeGraph} {ctx : Context} {n : Names} {file : ManagerFile} {s t u : TypeName}

/-- What holds a type by value is an enum over instances, for one of them. -/
theorem Holds.eq_variant (hfile : managerFile ctx n = .ok file) (h : Holds n file s t) :
    ∃ decl ∈ file.beans, decl.hasKinds = true ∧ s = ⟨decl.fullName, true⟩ ∧
      ∃ v ∈ decl.variants, t = ⟨v.tag, false⟩ := by
  cases h with
  | field hdecl _ hf hb =>
    obtain ⟨_, _, hbeans, _⟩ := managerFile_eq_ok hfile
    obtain ⟨_, _, hdecl⟩ := exists_of_mem_mapM hbeans hdecl
    obtain ⟨_, _, hf⟩ := exists_of_mem_mapM (Names.beanDecl_eq_ok hdecl).fields hf
    cases hb.unboxed (Names.fieldDecl_eq_ok hf).form
  | variant hdecl hkinds hv => exact ⟨_, hdecl, hkinds, rfl, _, hv, rfl⟩

/-- What is held by value holds nothing. -/
theorem Holds.single (hfile : managerFile ctx n = .ok file) (hst : Holds n file s t) :
    ¬Holds n file t u := by
  intro htu
  obtain ⟨_, _, _, _, _, _, ht⟩ := hst.eq_variant hfile
  obtain ⟨_, _, _, ht', _⟩ := htu.eq_variant hfile
  exact Bool.false_ne_true (congrArg TypeName.ofKinds (ht.symm.trans ht'))

theorem ident_kinds {b : BeanDef} {decl : BeanDecl} (h : n.beanDecl b = .ok decl)
    (hkinds : decl.hasKinds = true) : TypeName.ident n ⟨decl.fullName, true⟩ = decl.kindIdent := by
  have hdescribes := Names.beanDecl_eq_ok h
  rw [hdescribes.kindIdent, Names.beanIdent, if_pos (hdescribes.hasKinds ▸ hkinds),
    hdescribes.fullName]
  rfl

/-- The enum has a line for the struct, and the file defines both. -/
theorem Holds.written (hover : ctx.Over g) (hn : n.types = g.types)
    (hfile : managerFile ctx n = .ok file) (h : Holds n file s t) :
    ∃ code code', (s.ident n, code) ∈ file.definitions n ∧ (t.ident n, code') ∈ file.definitions n ∧
      "    " ++ (t.ident n ++ "(" ++ t.ident n ++ "),") ∈ code := by
  obtain ⟨decl, hdecl, hkinds, rfl, v, hv, rfl⟩ := h.eq_variant hfile
  obtain ⟨_, _, hbeans, _⟩ := managerFile_eq_ok hfile
  obtain ⟨b, _, hb⟩ := exists_of_mem_mapM hbeans hdecl
  have hkind : TypeName.ident n ⟨decl.fullName, true⟩ = decl.kindIdent := ident_kinds hb hkinds
  obtain ⟨c, hc, htag, hident, hconcrete⟩ := exists_payload hover hn hfile hdecl hv
  have hname : c.fullName = v.tag := (g.bean?_eq_some_iff.1 (hn ▸ htag)).2
  have hvariant : TypeName.ident n ⟨v.tag, false⟩ = v.ident := by
    rw [hident, ← hname]
    rfl
  obtain ⟨payload, hpayload, hpayloadDecl⟩ := exists_of_mapM_eq_ok hbeans hc
  have hdescribes := Names.beanDecl_eq_ok hpayloadDecl
  refine ⟨decl.kindCode, payload.structCode n, ?_, ?_, ?_⟩
  · exact file.mem_definitions_of_bean hdecl
      (BeanDecl.mem_definitions_iff.2 (.inr ⟨hkinds, hkind, rfl⟩))
  · have hpayloadIdent : TypeName.ident n ⟨v.tag, false⟩ = payload.ident := by
      rw [hvariant, hident, hdescribes.ident]
    exact file.mem_definitions_of_bean hpayload (BeanDecl.mem_definitions_iff.2
      (.inl ⟨hdescribes.isAbstract.trans hconcrete, hpayloadIdent, rfl⟩))
  · rw [hvariant]
    refine List.mem_append_right _ (Code.mem_item (List.mem_flatMap.2 ⟨v, hv, ?_⟩) (by simp))
    exact List.mem_cons_of_mem _ (List.mem_singleton_self _)

/-- Both are types of the run. -/
theorem Holds.mem_allTypes (hover : ctx.Over g) (hn : n.types = g.types)
    (hfile : managerFile ctx n = .ok file) (h : Holds n file s t) :
    s ∈ n.allTypes ctx ∧ t ∈ n.allTypes ctx := by
  obtain ⟨decl, hdecl, hkinds, rfl, v, hv, rfl⟩ := h.eq_variant hfile
  have hmem : ∀ {b : BeanDef} {t}, b ∈ ctx.closure.beans → t ∈ n.beanTypes b → t ∈ n.allTypes ctx :=
    fun hb h => List.mem_append_left _ (List.mem_append_right _ (List.mem_flatMap.2 ⟨_, hb, h⟩))
  obtain ⟨_, _, hbeans, _⟩ := managerFile_eq_ok hfile
  constructor
  · obtain ⟨b, hb, hdescribes⟩ := exists_of_mem_mapM hbeans hdecl
    have hdescribes := Names.beanDecl_eq_ok hdescribes
    refine hmem hb (List.mem_append_right _ ?_)
    rw [← hdescribes.hasKinds, if_pos hkinds, hdescribes.fullName]
    exact List.mem_singleton_self _
  · obtain ⟨c, hc, htag, _, hconcrete⟩ := exists_payload hover hn hfile hdecl hv
    refine hmem hc (List.mem_append_left _ ?_)
    rw [if_neg (by simp [hconcrete]), (g.bean?_eq_some_iff.1 (hn ▸ htag)).2]
    exact List.mem_singleton_self _

theorem finitelySized_of_managerFile (hover : ctx.Over g) (hn : n.types = g.types)
    (hfile : managerFile ctx n = .ok file) : FinitelySized n file := by
  have hwf : WellFounded (flip (Holds n file)) :=
    wellFounded_of_single fun _ _ _ h => h.single hfile
  refine ⟨hwf, fun types => ?_, fun t hcycle => ?_, fun s t h => h.written hover hn hfile,
    fun hnodup => ?_⟩
  · by_contra! hall
    exact (wellFounded_iff_isEmpty_descending_chain.1 hwf).false ⟨types, hall⟩
  · obtain ⟨u, htu, hut⟩ := Relation.TransGen.head'_iff.1 hcycle
    rcases hut.cases_head with rfl | ⟨v, huv, _⟩
    · exact htu.single hfile htu
    · exact htu.single hfile huv
  · rw [idents_definitions hfile] at hnodup
    refine wellFounded_of_single ?_
    rintro _ _ _ ⟨s, t, hst, rfl, rfl⟩ ⟨t', u, htu, hident, rfl⟩
    -- both types have the identifier in the middle, and there is only one such type
    have hsame : t' = t := List.inj_on_of_nodup_map hnodup (htu.mem_allTypes hover hn hfile).1
      (hst.mem_allTypes hover hn hfile).2 hident
    exact (hst.single hfile) (hsame ▸ htu)

end

/-- Whatever the beans of an accepted graph mention, and however their fields nest containers and
values that may be missing, the types generated for them are of finite size. -/
theorem generated_types_finitelySized (g : TypeGraph) (ctx : Context) (n : Names)
    (hover : ctx.Over g) (hn : n.types = g.types) : ∃ file, managerFile ctx n = .ok file ∧
      (namesOf ctx = .ok n → managerText ctx = .ok (file.code n).text) ∧ FinitelySized n file := by
  obtain ⟨file, hfile⟩ :=
    exists_managerFile hn (fun _ => hover.declared_bean) hover.declared_table
  exact ⟨file, hfile, fun hnames => managerText_of_managerFile hnames hfile,
    finitelySized_of_managerFile hover hn hfile⟩

namespace Nodes

/-- A bean whose values may contain further ones, alone and in containers. -/
def node : BeanDef := ⟨"", "Node", none, false, [],
  [⟨"next", .nullable (.named "Node"), none⟩,
    ⟨"below", .map (.primitive .int) (.sequence .list (.nullable (.named "Node"))), none⟩], none⟩

/-- Its child, whose values contain a node. -/
def leaf : BeanDef := ⟨"", "Leaf", some "Node", false, [], [⟨"owner", .named "Node", none⟩], none⟩

/-- A table of nodes. -/
def table : TableDef := ⟨"", "TbNode", "Node", none, .list, [], none, none⟩

/-- Both beans, and the table. -/
def graph : TypeGraph := ⟨[.bean node, .bean leaf, .table table], by decide⟩

/-- The names of a run over the graph. -/
def names : Names := ⟨graph.types, .underscored⟩

/-- The enum over nodes holds a leaf, but no chain of the types goes on for ever. -/
theorem nodes_finitelySized : ∃ ctx file, ctx.Over graph ∧ names.types = graph.types ∧
    managerFile ctx names = .ok file ∧ Holds names file ⟨"Node", true⟩ ⟨"Leaf", false⟩ ∧
    FinitelySized names file := by
  obtain ⟨ctx, hover, _, htables, _⟩ :=
    exists_context graph ⟨"client", "Tables", "", []⟩ [table] rfl
  obtain ⟨file, hfile, _, hsized⟩ := generated_types_finitelySized graph ctx names hover rfl
  obtain ⟨_, _, hbeans, _⟩ := managerFile_eq_ok hfile
  have htable : table ∈ ctx.exportTables := htables ▸ List.mem_singleton_self table
  obtain ⟨decl, hdecl, hnode⟩ := exists_of_mapM_eq_ok hbeans
    (hover.mem_beans_iff.2 (.row (b := node) htable (by decide)))
  have hdescribes := Names.beanDecl_eq_ok hnode
  have hleaf : ⟨names.structIdent leaf, "Leaf"⟩ ∈ decl.variants :=
    (Names.mem_variants_iff (g := graph) rfl (by decide) hnode).2
      ⟨by decide, leaf, .inr (.single (by decide)), rfl, rfl⟩
  have hholds : Holds names file ⟨decl.fullName, true⟩ ⟨"Leaf", false⟩ :=
    .variant hdecl (hdescribes.hasKinds.trans (by decide)) hleaf
  have hname : decl.fullName = "Node" := hdescribes.fullName.trans (by decide)
  rw [hname] at hholds
  exact ⟨ctx, file, hover, rfl, hfile, hholds, hsized⟩

/-- What keeps the struct of a node from holding the enum. -/
example : (TypeForm.ofType graph.types node true (.nullable (.named "Node"))).map (·.render names) =
    .ok "Option<Box<NodeKind>>" := by
  decide +kernel

end Nodes

end ConfigTables.Wrapper
